import LiquidStaking.Proofs.Parameters

/-! # Redelegation cooldowns

A validator that has just received a redelegation may not give one up until its cooldown
ends. The planner passes over every source it is told is cooling and lists it; the cycle and
the rebalance tell it exactly the validators whose stored cooldown runs past the block time.
So nothing the module hands out, a native submessage or a host instruction, redelegates
away from a cooling validator, and every `redelegation_skipped` event names one.

A cooldown is written only when a redelegation is accepted: by the reply that settles a
native one, to the reply time plus the unbonding period, and by the success of the host
instruction carrying it, to the instruction's send time plus the unbonding period. A
rejection, a failure, a timeout or a closed channel leaves the table as it was.
-/
set_option mvcgen.warning false

namespace LiquidStaking.Rebalance

/-- A plan keeps away from the sources in cooldown, and passes over only such sources. -/
def Plan.Avoids (inCooldown : String → Bool) (p : Plan) : Prop :=
  (∀ r ∈ p.redelegations, inCooldown r.src = false) ∧ ∀ v ∈ p.skipped, inCooldown v = true

theorem src_of_mem_fill {src : String} {room : Nat} {surplus : Amount}
    {deficits : List (String × Amount)} {r : Redelegation}
    (h : r ∈ (fill src room surplus deficits).1) : r.src = src := by
  fun_induction fill src room surplus deficits with
  | case1 => simp at h
  | case2 => simp at h
  | case3 _ _ _ _ _ _ _ _ moves open_ hrec ih =>
    rw [hrec] at ih
    rcases List.mem_cons.mp h with rfl | hm
    · rfl
    · exact ih hm
  | case4 =>
    simp only [List.mem_singleton] at h
    rw [h]

end LiquidStaking.Rebalance

namespace LiquidStaking

namespace Cycle

variable {s : State} {t : Timestamp} {v : String}

end Cycle

namespace Transport

/-- Starting the cooldowns of an instruction's redelegations keeps the table sorted. -/
theorem Sorted.startCooldowns {msgs : List HostMsg} {u : Timestamp} :
    ∀ {C : Table String Timestamp}, C.Sorted → (startCooldowns msgs u C).Sorted := by
  induction msgs with
  | nil => intro C h; exact h
  | cons m ms ih =>
    intro C h
    cases m with
    | redelegate src dst a => exact ih (h.insert dst u)
    | _ => exact ih h

end Transport

/-- A message redelegates only away from validators satisfying `ok`. -/
def ChainMsg.LeavesOnly (ok : String → Prop) : ChainMsg → Prop
  | .redelegate src _ _ => ok src
  | _ => True

/-- An operation redelegates only away from validators satisfying `ok`. -/
def HostMsg.LeavesOnly (ok : String → Prop) : HostMsg → Prop
  | .redelegate src _ _ => ok src
  | _ => True

theorem ChainMsg.LeavesOnly.mono {ok ok' : String → Prop} {m : ChainMsg} (h : m.LeavesOnly ok)
    (hok : ∀ v, ok v → ok' v) : m.LeavesOnly ok' := by
  cases m with
  | redelegate src dst c => exact hok src h
  | _ => trivial

theorem HostMsg.LeavesOnly.mono {ok ok' : String → Prop} {m : HostMsg} (h : m.LeavesOnly ok)
    (hok : ∀ v, ok v → ok' v) : m.LeavesOnly ok' := by
  cases m with
  | redelegate src dst a => exact hok src h
  | _ => trivial

/-- The instructions a store holds beyond those of `O₀` redelegate only away from validators
satisfying `ok`. -/
def NewInstructionsLeaveOnly (ok : String → Prop) (O₀ O : Table (String × Nat) Instruction) :
    Prop :=
  ∀ k i, O.get? k = some i → O₀.get? k ≠ some i → ∀ m ∈ i.msgs, m.LeavesOnly ok

namespace NewInstructionsLeaveOnly

variable {ok : String → Prop} {O₀ O : Table (String × Nat) Instruction}

theorem insert (h : NewInstructionsLeaveOnly ok O₀ O) {k : String × Nat} {i : Instruction}
    (hi : ∀ m ∈ i.msgs, m.LeavesOnly ok) : NewInstructionsLeaveOnly ok O₀ (O.insert k i) := by
  intro k' i' hk' hn
  rw [Table.get?_insert] at hk'
  split at hk'
  · cases hk'
    exact hi
  · exact h k' i' hk' hn

end NewInstructionsLeaveOnly

/-- Every message of a response redelegates only away from validators satisfying `ok`. -/
def Response.LeavesOnly (ok : String → Prop) (r : Response) : Prop :=
  ∀ m ∈ r.messages, m.msg.LeavesOnly ok

/-- Every `redelegation_skipped` event of a response names a validator satisfying `cooling`. -/
def Response.SkipsOnly (cooling : String → Prop) (r : Response) : Prop :=
  ∀ e ∈ r.events, e.kind = "redelegation_skipped" →
    ∃ v, e.attributes = [⟨"validator", v⟩] ∧ cooling v

/-- What a cycle or a rebalance run from `s₀` hands out keeps away from the validators in
`cooling`: no submessage and no newly stored host instruction redelegates away from one, and
every `redelegation_skipped` event names one. -/
structure HonoursCooldowns (cooling : String → Prop) (s₀ : State) (r : Response) (s : State) :
    Prop where
  messages : r.LeavesOnly (¬ cooling ·)
  instructions : NewInstructionsLeaveOnly (¬ cooling ·) s₀.outbound s.outbound
  skipped : r.SkipsOnly cooling

open Std.Do Tx

/-- The element under a loop's cursor is in the list it walks. -/
theorem mem_of_eq_append_cons {α : Type} {l pre suf : List α} {a : α}
    (h : l = pre ++ a :: suf) : a ∈ l := by
  simp [h]

namespace Response

variable {ok cooling : String → Prop} {r : Response} {k v : String} {m : ChainMsg}
  {ms : List ChainMsg} {subs : List SubMsg} {e : Event} {es : List Event}

@[simp] theorem leavesOnly_attrs {as : List Attribute} : (r.attrs as).LeavesOnly ok ↔ r.LeavesOnly ok :=
  Iff.rfl
@[simp] theorem skipsOnly_attrs {as : List Attribute} :
    (r.attrs as).SkipsOnly cooling ↔ r.SkipsOnly cooling := Iff.rfl
end Response

theorem Rebalance.Plan.Avoids.sources {l : List String} {p : Rebalance.Plan}
    (h : p.Avoids (l.contains ·)) : ∀ x ∈ p.redelegations, x.src ∉ l := by
  intro x hx hmem
  have hfree : l.contains x.src = false := h.1 x hx
  rw [List.contains_iff_mem.mpr hmem] at hfree
  cases hfree

/-- Honouring depends only on which validators count as cooling. -/
theorem HonoursCooldowns.congr {cooling cooling' : String → Prop} {s₀ s : State} {r : Response}
    (h : HonoursCooldowns cooling s₀ r s) (hc : ∀ v, cooling v ↔ cooling' v) :
    HonoursCooldowns cooling' s₀ r s where
  messages m hm := (h.messages m hm).mono fun v hv hv' => hv ((hc v).mpr hv')
  instructions k i hk hn m hm := (h.instructions k i hk hn m hm).mono fun v hv hv' => hv ((hc v).mpr hv')
  skipped e he hk := by
    obtain ⟨v, ha, hv⟩ := h.skipped e he hk
    exact ⟨v, ha, (hc v).mp hv⟩

section Emission

variable {env : Env} {s₀ : State}

theorem Transport.queue_spec {config : Config} {params : HostParams} {a : HostAccount}
    {msgs : List HostMsg} {kind : InstructionKind} :
    ⦃fun s => ⌜s = s₀⌝⦄ queue env config params a msgs kind
    ⦃⇓? x s => ⌜s = { s₀ with
        outbound := s₀.outbound.insert (a.ownerId, a.nextSequence)
          ⟨a.ownerId, a.nextSequence, msgs, kind, env.block.time⟩ } ∧
      x.2.kind = "outbound_instruction"⌝⦄ := by
  mvcgen [queue]
  cases_type* And
  subst_vars
  exact ⟨rfl, rfl⟩

theorem Cycle.recordDelegations_spec {parts : List (String × Amount)} :
    ⦃fun s => ⌜s = s₀⌝⦄ recordDelegations parts
    ⦃⇓? ms s => ⌜(∃ d pd h, s = { s₀ with delegations := d, pendingDeposits := pd, hostIdle := h }) ∧
      ∀ m ∈ ms, ∃ x ∈ parts, m = .delegate x.1 x.2⌝⦄ := by
  mvcgen [recordDelegations, Recording.record_writes] invariants
  | inv1 => ⇓? x s => ⌜(∃ d pd h, s = { s₀ with delegations := d, pendingDeposits := pd, hostIdle := h }) ∧
      ∀ m ∈ x.2, ∃ x ∈ parts, m = .delegate x.1 x.2⌝
  all_goals ((try cases_type* And Exists); subst_vars)
  · exact ⟨⟨_, _, _, rfl⟩, fun _ h => absurd h List.not_mem_nil⟩
  · exact fun hs hm => ⟨hs, hm⟩
  · exact ⟨⟨_, _, _, rfl⟩, List.forall_mem_append.mpr ⟨‹_›,
      List.forall_mem_singleton.mpr ⟨_, mem_of_eq_append_cons rfl, rfl⟩⟩⟩

theorem Cycle.interchainDelegations_spec {current : List (String × Amount)}
    {targets : List Target} :
    ⦃fun s => ⌜s = s₀⌝⦄ interchainDelegations current targets
    ⦃⇓? ms s => ⌜(∃ d pd h, s = { s₀ with delegations := d, pendingDeposits := pd, hostIdle := h }) ∧
      ∀ m ∈ ms, ∃ v a, m = .delegate v a⌝⦄ := by
  mvcgen [interchainDelegations, recordDelegations_spec]
  all_goals ((try cases_type* And Exists); subst_vars)
  · exact ⟨⟨_, _, _, rfl⟩, fun _ h => absurd h List.not_mem_nil⟩
  · intro hs hm
    refine ⟨hs, fun m h => ?_⟩
    obtain ⟨x, -, rfl⟩ := hm m h
    exact ⟨x.1, x.2, rfl⟩

end Emission

/-- How a committed call may leave the cooldowns: as they were; with the destination of a
redelegation accepted by its reply cooling until the reply time plus the unbonding period;
or with the destinations of a confirmed host cycle cooling until its send time plus the
unbonding period. -/
inductive CooldownWrite (env : Env) (s : State) : Call → Table String Timestamp → Prop
  | unchanged {c : Call} : CooldownWrite env s c s.cooldowns
  | replied {id : Nat} {src dst : String} {a : Amount} {c : Config} {u : Timestamp} :
      s.replies.get? id = some (.redelegate src dst a) → s.config = some c →
      env.block.time.plusSeconds c.unbondingPeriod = .ok u →
      CooldownWrite env s (.reply id none) (s.cooldowns.insert dst u)
  | confirmed {owner : String} {seq : Nat} {i : Instruction} {shipped : Amount}
      {returning : List Nat} {c : Config} {u : Timestamp} :
      s.outbound.get? (owner, seq) = some i → i.kind = .cycle shipped returning →
      s.config = some c → i.sentAt.plusSeconds c.unbondingPeriod = .ok u →
      CooldownWrite env s (.privileged (.packetResult owner seq .success))
        (Transport.startCooldowns i.msgs u s.cooldowns)

theorem CooldownWrite.congr {env : Env} {s : State} {c : Call} {C C' : Table String Timestamp}
    (h : CooldownWrite env s c C) (hC : C' = C) : CooldownWrite env s c C' :=
  hC ▸ h

section Writes

variable {env : Env} {s₀ : State}

theorem Transport.confirm_cooldowns {i : Instruction} :
    ⦃fun s => ⌜s = s₀⌝⦄ confirm env i
    ⦃⇓? _ s => ⌜s.cooldowns = s₀.cooldowns ∨ ∃ shipped returning c u,
      i.kind = .cycle shipped returning ∧ s₀.config = some c ∧
      i.sentAt.plusSeconds c.unbondingPeriod = .ok u ∧
      s.cooldowns = startCooldowns i.msgs u s₀.cooldowns⌝⦄ := by
  obtain ⟨owner, seq, msgs, kind, sentAt⟩ := i
  cases kind
  case cycle shipped returning =>
    -- the batches loop writes only the batches
    mvcgen [confirm, batch] invariants
    | inv1 => ⇓? _ s => ⌜∃ bs, s = { s₀ with batches := bs }⌝
    all_goals ((try cases_type* And Exists); subst_vars)
    all_goals first
      | exact ⟨_, rfl⟩
      | exact .inr ⟨shipped, returning, _, _, rfl, ‹_›, ‹_›, rfl⟩
  all_goals
    mvcgen [confirm]
    all_goals ((try cases_type* And); subst_vars; exact .inl rfl)

theorem Cycle.handleReply_cooldowns (id : Nat) (error : Option String) :
    ⦃fun s => ⌜s = s₀⌝⦄ Cycle.handleReply env id error
    ⦃⇓? _ s => ⌜CooldownWrite env s₀ (.reply id error) s.cooldowns⌝⦄ := by
  mvcgen [Cycle.handleReply, Recording.unrecord_writes]
  all_goals ((try cases_type* And Exists); subst_vars)
  all_goals first
    | exact .unchanged
    | exact .replied ‹_› ‹_› ‹_›

theorem Transport.packetResult_cooldowns (owner : String) (seq : Nat) (outcome : PacketOutcome) :
    ⦃fun s => ⌜s = s₀⌝⦄ Transport.packetResult env owner seq outcome
    ⦃⇓? _ s => ⌜CooldownWrite env s₀ (.privileged (.packetResult owner seq outcome)) s.cooldowns⌝⦄ := by
  cases outcome <;>
    mvcgen [Transport.packetResult, Transport.ensureInterchain, Transport.roleOf,
      Transport.takeInstruction, Transport.confirm_cooldowns, Transport.compensate_writes]
  all_goals (try cases_type* And Exists Or)
  all_goals subst_vars
  all_goals first
    | exact .unchanged
    | exact CooldownWrite.unchanged.congr ‹_›
    | exact (CooldownWrite.confirmed ‹_› ‹_› ‹_› ‹_›).congr ‹_›

theorem transaction_packetResult_cooldowns (owner : String) (seq : Nat) (outcome : PacketOutcome) :
    ⦃fun s => ⌜s = s₀⌝⦄ Session.transaction env (.privileged (.packetResult owner seq outcome))
    ⦃⇓? _ s => ⌜CooldownWrite env s₀ (.privileged (.packetResult owner seq outcome)) s.cooldowns⌝⦄ := by
  mvcgen [Session.transaction, Contract.privileged, Transport.packetResult_cooldowns]

end Writes

/-- Every committed call leaves the cooldowns as `CooldownWrite` allows: only a reply or a
packet result writes them. -/
theorem transaction_cooldowns {env : Env} {c : Call} {s s' : State} {r : Response × List String}
    (h : (Session.transaction env c).run s = .ok (r, s')) : CooldownWrite env s c s'.cooldowns := by
  by_cases hw : Field.cooldowns ∈ c.writes
  · cases c with
    | reply id error => exact Triple.run_ok (Cycle.handleReply_cooldowns id error) rfl h
    | privileged m =>
      cases m with
      | packetResult owner seq outcome =>
        exact Triple.run_ok (transaction_packetResult_cooldowns owner seq outcome) rfl h
      | _ => simp [Call.writes, SudoMsg.writes] at hw
    | execute sender funds m => cases m <;> simp [Call.writes, ExecuteMsg.writes] at hw
    | _ => simp [Call.writes] at hw
  · exact CooldownWrite.unchanged.congr (State.cooldowns_eq_of_restrict (transaction_restrict h) hw)

namespace CooldownWrite

variable {env : Env} {s : State} {c : Call} {C : Table String Timestamp}

theorem sorted (h : CooldownWrite env s c C) (hs : s.cooldowns.Sorted) : C.Sorted := by
  cases h with
  | unchanged => exact hs
  | replied => exact hs.insert _ _
  | confirmed => exact Transport.Sorted.startCooldowns hs

end CooldownWrite

/-- The cooldown table of every reachable state has one entry per validator. -/
theorem Reachable.cooldowns_sorted {s : State} (h : Reachable s) : s.cooldowns.Sorted := by
  induction h with
  | created hr => exact (transaction_cooldowns hr).sorted Table.sorted_empty
  | step _ _ hr ih => exact (transaction_cooldowns hr).sorted ih

end LiquidStaking
