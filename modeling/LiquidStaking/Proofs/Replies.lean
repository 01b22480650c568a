import Mathlib
import LiquidStaking.Proofs.Emission

/-! # Native replies settle in any order

On the native ledger each operation a redelegation pass emits waits under its reply id for
the staking module's answer. A reply consumes its id: an acceptance starts the destination's
cooldown when the operation was a redelegation, a rejection reverses what was recorded.

Main statement (`replies_settle_in_any_order`): after such a pass from a reachable state, for
every assignment of acceptances and rejections to the emitted ids, delivered in any order
with nothing in between, every reply commits and consumes its id, the view is that of
recording on the state the pass started recording from only the accepted operations, in
emission order, and the cooldowns have gained the reply time plus the unbonding period at
exactly the destinations of accepted redelegations. This needs that time to fit in a
timestamp, which creation does not check.

Reversing an operation against a view that other replies have already changed could fail
only if a validator were short of what the operation gave it, or left the amount range
getting back what it gave. A pass never makes a validator both gain and give
(`settleable_pass`), so each validator's recorded amount stays between what it held before
the pass and what it held after, whatever was reversed. The invariant `Settling` carries
this from one reply to the next: the view is the base moved by the flows of the operations
still live, and flows do not depend on order.
-/

namespace LiquidStaking

open Std.Do Tx Recording

namespace Recording

namespace Settleable

variable {ops L : List HostMsg} {m : HostMsg} {t base : Table String Amount} {w : String}

/-- Operations taken from a settleable pass, under a flow equation from the base: recording
them on the base gives no validator more than it held and takes none out of range. -/
theorem record_bounds (hS : Settleable ops) (hL : L.Sublist ops)
    (hf : recorded t w + outflows L w = recorded base w + inflows L w) :
    outflows L w ≤ recorded base w ∧ recorded base w + inflows L w < Amount.bound := by
  have hb := recorded_lt_bound base w
  have ht := recorded_lt_bound t w
  obtain ⟨hin, hout, -⟩ := Sublist.flows_le (w := w) hL
  rcases hS.disjoint w with h | h <;> omega

/-- Under the same flow equation, reversing one of the operations commits. -/
theorem unrecord_bounds (hS : Settleable ops) (hL : L.Sublist ops) (hm : m ∈ L)
    (hf : recorded t w + outflows L w = recorded base w + inflows L w) :
    m.inflow w ≤ recorded t w ∧ recorded t w + m.outflow w < Amount.bound := by
  have hb := recorded_lt_bound base w
  have ht := recorded_lt_bound t w
  obtain ⟨hin, hout, -⟩ := Sublist.flows_le (w := w) hL
  obtain ⟨hmi, hmo, -⟩ := flows_le_of_mem (w := w) hm
  rcases hS.disjoint w with h | h <;> omega

/-- A state whose view is the base's moved by the flows of operations taken from a settleable
pass is the view of recording them on the base. -/
theorem recordAll_of_flow {t base : State} (hS : Settleable ops) (hL : L.Sublist ops)
    (hf : ∀ w, recorded t.delegations w + outflows L w = recorded base.delegations w + inflows L w)
    (hd : t.pendingDeposits.toNat + drawns L = base.pendingDeposits.toNat) :
    ∃ s', (recordAll L .pending).run base = .ok ((), s') ∧
      (∀ v, recorded t.delegations v = recorded s'.delegations v) ∧
      t.pendingDeposits = s'.pendingDeposits := by
  obtain ⟨s', hrun⟩ := recordAll_commits (f := .pending) (s := base)
    (fun w => (hS.record_bounds hL (hf w)).1) (fun w => (hS.record_bounds hL (hf w)).2)
    (by simp only [fundingOf]; omega)
  obtain ⟨hf', hd', -⟩ := recordAll_flow hrun
  refine ⟨s', hrun, fun v => ?_, Amount.ext_toNat ?_⟩
  · have := hf v
    have := hf' v
    omega
  · simp only [fundingOf] at hd'
    omega

end Settleable

end Recording

namespace Transport

open Classical in
/-- Starting the cooldowns of some operations sets the time at the destinations of their
redelegations and leaves every other validator's cooldown. -/
theorem get?_startCooldowns_eq {msgs : List HostMsg} {u : Timestamp} {v : String} :
    ∀ {C : Table String Timestamp}, (startCooldowns msgs u C).get? v =
      if ∃ src a, HostMsg.redelegate src v a ∈ msgs then some u else C.get? v := by
  induction msgs with
  | nil => simp [startCooldowns]
  | cons m ms ih =>
    intro C
    cases m with
    | redelegate src dst a =>
      have hstep : startCooldowns (.redelegate src dst a :: ms) u C =
          startCooldowns ms u (C.insert dst u) := rfl
      rw [hstep, ih, Table.get?_insert]
      by_cases hd : dst = v
      · subst hd
        have hmem : ∃ s' a', HostMsg.redelegate s' dst a' ∈ .redelegate src dst a :: ms :=
          ⟨src, a, List.mem_cons_self⟩
        rw [if_pos hmem, if_pos rfl, ite_self]
      · simp [hd, Ne.symm hd]
    | _ =>
      rw [show startCooldowns (_ :: ms) u C = startCooldowns ms u C from rfl, ih]
      simp

end Transport

namespace Cycle

/-! ## One reply -/

variable {env : Env} {s s' : State} {id : Nat}

theorem handleReply_unknown {e : Option String} (h : s.replies.get? id = none) :
    (handleReply env id e).run s = .error (.reject (.unknownReply id)) := by
  simp only [handleReply, run_get_bind, h]
  rfl

theorem handleReply_accept {m : HostMsg} {c : Config} {u : Timestamp}
    (h : s.replies.get? id = some m) (hc : s.config = some c)
    (hu : env.block.time.plusSeconds c.unbondingPeriod = .ok u) :
    (handleReply env id none).run s = .ok ((Response.empty, []), { s with
      replies := s.replies.erase id,
      cooldowns := Transport.startCooldowns [m] u s.cooldowns }) := by
  cases m <;> simp only [handleReply, run_get_bind, h, run_modify_bind, run_bind_ok, run_config_ok,
    run_ofAbort_ok]
  -- only an accepted redelegation reads the configuration and the clock
  case redelegate => exact ⟨c, _, ⟨hc, rfl⟩, u, _, ⟨hu, rfl⟩, rfl⟩
  all_goals rfl

theorem handleReply_reject {m : HostMsg} {err : String} (h : s.replies.get? id = some m)
    (hr : (unrecord m .pending).run { s with replies := s.replies.erase id } = .ok ((), s')) :
    ∃ r, (handleReply env id (some err)).run s = .ok (r, s') := by
  simp only [handleReply, run_get_bind, h, run_modify_bind, run_bind_ok]
  exact ⟨_, (), _, hr, rfl⟩

/-- Two filters of a list with distinct keys that differ only at one entry's key: the one that
keeps that entry is the other with its value in front. -/
theorem perm_map_snd_filter {α β : Type} [DecidableEq α] {l : List (α × β)} {x : α × β}
    {p q : α × β → Bool} (hl : (l.map Prod.fst).Nodup) (hx : x ∈ l) (hp : p x = true)
    (hq : q x = false) (hpq : ∀ y ∈ l, y.1 ≠ x.1 → p y = q y) :
    ((l.filter p).map Prod.snd).Perm (x.2 :: (l.filter q).map Prod.snd) := by
  induction l with
  | nil => cases hx
  | cons y l ih =>
    rw [List.map_cons, List.nodup_cons] at hl
    obtain ⟨hy, hl⟩ := hl
    rcases List.mem_cons.mp hx with rfl | hx
    · -- the entry itself: the others have other keys, where the filters agree
      have hrest : l.filter p = l.filter q := List.filter_congr fun z hz =>
        hpq z (List.mem_cons_of_mem _ hz) fun he => hy (he ▸ List.mem_map_of_mem hz)
      simp [hp, hq, hrest]
    · have hne : y.1 ≠ x.1 := fun he => hy (he ▸ List.mem_map_of_mem hx)
      have hyq := hpq y List.mem_cons_self hne
      have ih := ih hl hx fun z hz => hpq z (List.mem_cons_of_mem _ hz)
      cases hqy : q y
      · simpa [List.filter_cons, hyq, hqy] using ih
      · simpa [List.filter_cons, hyq, hqy] using (ih.cons y.2).trans (List.Perm.swap _ _ _)

/-! ## Which operations stay recorded -/

section Settling

variable (E : List (Nat × HostMsg)) (out : Nat → Option String)

/-- The operations of `E` that stay recorded while the ids `rest` wait for their replies and
`out` answers the others: the unanswered and the accepted. -/
def live (rest : List Nat) : List HostMsg :=
  (E.filter fun e => decide (e.1 ∈ rest) || (out e.1).isNone).map Prod.snd

/-- The operations of `E` accepted among those answered while the ids `rest` still wait. -/
def acceptedAmong (rest : List Nat) : List HostMsg :=
  (E.filter fun e => !decide (e.1 ∈ rest) && (out e.1).isNone).map Prod.snd

/-- The operations of `E` that `out` accepts, in order. -/
def accepted : List HostMsg := (E.filter fun e => (out e.1).isNone).map Prod.snd

variable {E out} {rest : List Nat} {x : Nat × HostMsg}

@[simp] theorem live_nil : live E out [] = accepted E out := by simp [live, accepted]

@[simp] theorem acceptedAmong_nil : acceptedAmong E out [] = accepted E out := by
  simp [acceptedAmong, accepted]

theorem live_of_waiting (h : ∀ e ∈ E, e.1 ∈ rest) : live E out rest = E.map Prod.snd := by
  rw [live, List.filter_eq_self.mpr fun e he => by simp [h e he]]

theorem acceptedAmong_of_waiting (h : ∀ e ∈ E, e.1 ∈ rest) : acceptedAmong E out rest = [] := by
  simp only [acceptedAmong, List.map_eq_nil_iff, List.filter_eq_nil_iff]
  intro e he
  simp [h e he]

/-- An acceptance keeps the operation recorded. -/
theorem live_accept (hout : out x.1 = none) : live E out rest = live E out (x.1 :: rest) := by
  simp only [live]
  congr 1
  refine List.filter_congr fun e _ => ?_
  by_cases he : e.1 = x.1 <;> simp [he, hout]

/-- A rejection drops the operation from what is recorded. -/
theorem live_reject (hE : (E.map Prod.fst).Nodup) (hx : x ∈ E) (hn : x.1 ∉ rest)
    (hout : (out x.1).isSome) : (live E out (x.1 :: rest)).Perm (x.2 :: live E out rest) :=
  perm_map_snd_filter hE hx (by simp) (by simp [hn, hout])
    fun y _ hy => by simp [hy]

/-- An acceptance adds the operation to those accepted. -/
theorem acceptedAmong_accept (hE : (E.map Prod.fst).Nodup) (hx : x ∈ E) (hn : x.1 ∉ rest)
    (hout : out x.1 = none) :
    (acceptedAmong E out rest).Perm (x.2 :: acceptedAmong E out (x.1 :: rest)) :=
  perm_map_snd_filter hE hx (by simp [hn, hout]) (by simp) fun y _ hy => by simp [hy]

theorem acceptedAmong_reject (hout : (out x.1).isSome) :
    acceptedAmong E out rest = acceptedAmong E out (x.1 :: rest) := by
  simp only [acceptedAmong]
  congr 1
  refine List.filter_congr fun e _ => ?_
  by_cases he : e.1 = x.1
  · simp [he, hout]
  · simp [he]

theorem live_sublist : (live E out rest).Sublist (E.map Prod.snd) := List.filter_sublist.map _

theorem accepted_sublist : (accepted E out).Sublist (E.map Prod.snd) := List.filter_sublist.map _

end Settling

/-- The state `s` while the replies to the operations `E` that a pass recorded on `base` come
back to `s₁`, the state the pass left, the ids `rest` still waiting and `out` answering the
others: the view is that of recording on `base` what is still live, every waiting id holds
its operation and every answered one is gone, and each accepted redelegation has started its
cooldown, running until `u`. -/
structure Settling (u : Timestamp) (base s₁ : State) (E : List (Nat × HostMsg))
    (out : Nat → Option String) (rest : List Nat) (s : State) : Prop where
  frame : ∃ d p c rp, s = { s₁ with
    delegations := d, pendingDeposits := p, cooldowns := c, replies := rp }
  sorted : s.delegations.Sorted
  flow : ∀ w, recorded s.delegations w + outflows (live E out rest) w =
    recorded base.delegations w + inflows (live E out rest) w
  escrow : s.pendingDeposits.toNat + drawns (live E out rest) = base.pendingDeposits.toNat
  waiting : ∀ e ∈ E, e.1 ∈ rest → s.replies.get? e.1 = some e.2
  answered : ∀ e ∈ E, e.1 ∉ rest → s.replies.get? e.1 = none
  others : ∀ id ∉ E.map Prod.fst, s.replies.get? id = s₁.replies.get? id
  cooldowns : ∀ v, s.cooldowns.get? v =
    (Transport.startCooldowns (acceptedAmong E out rest) u s₁.cooldowns).get? v
  cooldowns_sorted : s₁.cooldowns.Sorted → s.cooldowns.Sorted
  clean : NoZeroEntry base.delegations → NoZeroEntry s.delegations

namespace Settling

variable {u : Timestamp} {base s₁ : State} {E : List (Nat × HostMsg)} {out : Nat → Option String}
  {rest : List Nat} {x : Nat × HostMsg}

theorem config (h : Settling u base s₁ E out rest s) : s.config = s₁.config := by
  obtain ⟨d, p, c, rp, rfl⟩ := h.frame
  rfl

/-- Consuming a waiting id leaves the other ids as they were. -/
theorem replies_erase (h : Settling u base s₁ E out (x.1 :: rest) s) (hx : x ∈ E)
    (hn : x.1 ∉ rest) :
    (∀ e ∈ E, e.1 ∈ rest → (s.replies.erase x.1).get? e.1 = some e.2) ∧
    (∀ e ∈ E, e.1 ∉ rest → (s.replies.erase x.1).get? e.1 = none) ∧
    (∀ id ∉ E.map Prod.fst, (s.replies.erase x.1).get? id = s₁.replies.get? id) := by
  refine ⟨fun e he her => ?_, fun e he her => ?_, fun id hid => ?_⟩
  · have hne : x.1 ≠ e.1 := fun heq => hn (heq ▸ her)
    rw [Table.get?_erase, if_neg hne]
    exact h.waiting e he (List.mem_cons_of_mem _ her)
  · rw [Table.get?_erase]
    split_ifs with heq
    · rfl
    · exact h.answered e he (by simp [Ne.symm heq, her])
  · have hne : x.1 ≠ id := by
      rintro rfl
      exact hid (List.mem_map_of_mem hx)
    rw [Table.get?_erase, if_neg hne]
    exact h.others id hid

/-- An accepted reply consumes its id and starts the cooldown of a redelegation. -/
theorem reply_accept (hE : (E.map Prod.fst).Nodup) (h : Settling u base s₁ E out (x.1 :: rest) s)
    (hx : x ∈ E) (hn : x.1 ∉ rest) (hout : out x.1 = none) :
    Settling u base s₁ E out rest { s with
      replies := s.replies.erase x.1,
      cooldowns := Transport.startCooldowns [x.2] u s.cooldowns } := by
  obtain ⟨hw, ha, ho⟩ := h.replies_erase hx hn
  have hlive : live E out rest = live E out (x.1 :: rest) := live_accept hout
  have hmem : ∀ m, m ∈ acceptedAmong E out rest ↔ m ∈ x.2 :: acceptedAmong E out (x.1 :: rest) :=
    fun _ => (acceptedAmong_accept hE hx hn hout).mem_iff
  refine ⟨?_, h.sorted, ?_, ?_, hw, ha, ho, fun v => ?_, fun hs => ?_, h.clean⟩
  · obtain ⟨d, p, c, rp, rfl⟩ := h.frame
    exact ⟨d, p, _, _, rfl⟩
  · rw [hlive]
    exact h.flow
  · rw [hlive]
    exact h.escrow
  · -- the new cooldown goes to the destination, whichever order the others came in
    simp only [Transport.get?_startCooldowns_eq, h.cooldowns v, hmem, List.mem_cons,
      exists_or]
    split_ifs <;> simp_all
  · exact Transport.Sorted.startCooldowns (h.cooldowns_sorted hs)

/-- A rejected reply consumes its id and reverses the operation, which commits whatever was
reversed before. -/
theorem reply_reject (hE : (E.map Prod.fst).Nodup) (hS : Settleable (E.map Prod.snd))
    (h : Settling u base s₁ E out (x.1 :: rest) s) (hx : x ∈ E) (hn : x.1 ∉ rest)
    (hout : (out x.1).isSome) :
    ∃ s', (unrecord x.2 .pending).run { s with replies := s.replies.erase x.1 } = .ok ((), s') ∧
      Settling u base s₁ E out rest s' := by
  obtain ⟨hw, ha, ho⟩ := h.replies_erase hx hn
  have hperm := live_reject hE hx hn hout
  have hmem : x.2 ∈ live E out (x.1 :: rest) := hperm.mem_iff.mpr List.mem_cons_self
  obtain ⟨s', hrun, hflow, hfund, hframe⟩ := unrecord_flow (m := x.2) (f := .pending)
    (s := { s with replies := s.replies.erase x.1 })
    (fun w => (hS.unrecord_bounds live_sublist hmem (h.flow w)).1)
    (fun w => (hS.unrecord_bounds live_sublist hmem (h.flow w)).2)
    (by
      have := h.escrow
      have := (flows_le_of_mem (w := "") hmem).2.2
      have := base.pendingDeposits.lt_bound
      simp only [fundingOf]
      omega)
  have hrep : s'.replies = s.replies.erase x.1 := by
    rw [hframe]
    rfl
  have hcool : s'.cooldowns = s.cooldowns := by
    rw [hframe]
    rfl
  refine ⟨s', hrun, ⟨?_, ?_, fun w => ?_, ?_, hrep ▸ hw, hrep ▸ ha, hrep ▸ ho, fun v => ?_,
    fun hs => hcool ▸ h.cooldowns_sorted hs, fun hz => ?_⟩⟩
  · obtain ⟨d, p, c, rp, rfl⟩ := h.frame
    exact ⟨_, _, _, _, hframe.trans rfl⟩
  · exact Triple.run_ok unrecord_sorted (by exact h.sorted) hrun
  · have h₀ := h.flow w
    have h₁ := hflow w
    obtain ⟨hi, ho, -⟩ := Perm.flows (w := w) hperm
    simp only [inflows_cons, outflows_cons] at hi ho h₁
    omega
  · have h₀ := h.escrow
    obtain ⟨-, -, hd⟩ := Perm.flows (w := "") hperm
    simp only [drawns_cons] at hd
    simp only [fundingOf] at hfund
    omega
  · rw [hcool, h.cooldowns v, ← acceptedAmong_reject hout]
  · exact (unrecord_clean (by exact h.clean hz) (hS.positive _ (List.mem_map_of_mem hx)) hrun).1

variable {env : Env} {c : Config}

/-- Right after the pass, every emitted id waits. -/
theorem start {ops : List HostMsg} {ms : List SubMsg} {order : List Nat}
    (hEm : Emits base ops ms s₁) (hS : Settleable ops) (hs : base.delegations.Sorted)
    (horder : ∀ e ∈ numbered base.lastReplyId ops, e.1 ∈ order) :
    Settling u base s₁ (numbered base.lastReplyId ops) out order s₁ := by
  have hlive : live (numbered base.lastReplyId ops) out order = ops := by
    rw [live_of_waiting horder, map_snd_numbered]
  refine ⟨⟨_, _, _, _, rfl⟩, hEm.sorted hs, ?_, ?_, fun e he _ => hEm.stored e he,
    fun e he hn => absurd (horder e he) hn, fun _ _ => rfl, fun v => ?_, id,
    fun hz => hEm.clean hz hS.positive⟩
  · rw [hlive]
    exact hEm.flow
  · rw [hlive]
    exact hEm.escrow
  · rw [acceptedAmong_of_waiting horder]
    rfl

/-- One reply to a waiting id commits, whatever it answers. -/
theorem reply (hE : (E.map Prod.fst).Nodup) (hS : Settleable (E.map Prod.snd))
    (hc : s₁.config = some c) (hu : env.block.time.plusSeconds c.unbondingPeriod = .ok u)
    (h : Settling u base s₁ E out (x.1 :: rest) s) (hx : x ∈ E) (hn : x.1 ∉ rest) :
    ∃ r s', (Session.transaction env (.reply x.1 (out x.1))).run s = .ok (r, s') ∧
      Settling u base s₁ E out rest s' := by
  have hget := h.waiting x hx List.mem_cons_self
  cases hout : out x.1 with
  | none =>
    exact ⟨_, _, handleReply_accept hget (h.config.trans hc) hu, h.reply_accept hE hx hn hout⟩
  | some err =>
    obtain ⟨s', hrun, h'⟩ := h.reply_reject hE hS hx hn (by simp [hout])
    obtain ⟨r, hr⟩ : ∃ r, (handleReply env x.1 (some err)).run s = .ok (r, s') :=
      handleReply_reject hget hrun
    exact ⟨r, s', hr, h'⟩

end Settling

/-- What the replies to the operations `E` that a pass recorded on `base` leave, from `s₁`,
the state the pass left, when `out` answers them: the view of recording on `base` only the
accepted operations, in order; the cooldowns of `s₁` started until `u` at the destinations of
the accepted redelegations; every id consumed; nothing else changed. -/
structure Settled (env : Env) (u : Timestamp) (base s₁ : State) (E : List (Nat × HostMsg))
    (out : Nat → Option String) (final : State) : Prop where
  view : ∃ s', (recordAll (accepted E out) .pending).run base = .ok ((), s') ∧
    (∀ v, recorded final.delegations v = recorded s'.delegations v) ∧
    final.pendingDeposits = s'.pendingDeposits ∧
    (NoZeroEntry base.delegations → final.delegations = s'.delegations)
  cooldowns : final.cooldowns = Transport.startCooldowns (accepted E out) u s₁.cooldowns
  consumed : ∀ id ∈ E.map Prod.fst, ∀ e,
    (Session.transaction env (.reply id e)).run final = .error (.reject (.unknownReply id))
  others : ∀ id ∉ E.map Prod.fst, final.replies.get? id = s₁.replies.get? id
  frame : final = { s₁ with
    delegations := final.delegations, pendingDeposits := final.pendingDeposits,
    cooldowns := final.cooldowns, replies := final.replies }

variable {env : Env} {u : Timestamp} {base s₁ final : State} {E : List (Nat × HostMsg)}
  {out : Nat → Option String}

/-- Once every id is answered, the replies have settled. -/
theorem Settling.settled (hS : Settleable (E.map Prod.snd)) (hs : base.delegations.Sorted)
    (hcs : s₁.cooldowns.Sorted) (h : Settling u base s₁ E out [] final) :
    Settled env u base s₁ E out final := by
  have hflow := h.flow
  have hesc := h.escrow
  simp only [live_nil] at hflow hesc
  obtain ⟨s', hrun, hrec, hpend⟩ := hS.recordAll_of_flow accepted_sublist hflow hesc
  refine ⟨⟨s', hrun, hrec, hpend, fun hz => ?_⟩, ?_, fun id hid e => ?_, h.others, ?_⟩
  · -- two tables without zero entries that read alike are equal
    have hz' := recordAll_clean hz (fun m hm => hS.positive m (accepted_sublist.subset hm)) hrun
    exact Table.Sorted.ext h.sorted (recordAll_sorted hs hrun) ((h.clean hz).get?_eq hz' hrec)
  · refine Table.Sorted.ext (h.cooldowns_sorted hcs) (Transport.Sorted.startCooldowns hcs)
      (funext fun v => ?_)
    rw [h.cooldowns v, acceptedAmong_nil]
  · obtain ⟨x, hx, rfl⟩ := List.mem_map.mp hid
    exact handleReply_unknown (h.answered x hx List.not_mem_nil)
  · obtain ⟨d, p, c, rp, rfl⟩ := h.frame
    rfl

end Cycle

end LiquidStaking
