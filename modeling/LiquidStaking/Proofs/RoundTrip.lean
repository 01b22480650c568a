import LiquidStaking.Proofs.Cooldowns

/-! # Round trips

A deposit followed at once by an instant redemption or an unstake of the derivative it minted
gives back at most the deposit, whatever the fee rates, provided the rate the deposit was
minted at owns its value: the supply is positive, or there is no value yet. The deposit moves
the rate from `(value, supply)` to `(value + d, supply + m)`, and the floor in
`m = ⌊d · supply / value⌋` gives `m · value ≤ d · supply`, which is what paying back
`⌊m · (value + d) / (supply + m)⌋` at most `d` needs.

The bootstrap rule breaks this when the supply is zero but the value is not, as after rewards
were restaked while no derivative was outstanding: the deposit is minted one for one and the
depositor's derivative then owns the whole value. `round_trip_gains_at_unowned_rate` replays
such a run.
-/
set_option mvcgen.warning false

namespace LiquidStaking

open Tx

/-! ## The rate -/

namespace ExchangeRate

/-- Every unit of value is owned by derivative: the supply is positive, or there is no
value. At a rate that is not owned the module holds value that no holder claims. -/
def Owned (r : ExchangeRate) : Prop := r.supply.toNat = 0 → r.value.toNat = 0

instance (r : ExchangeRate) : Decidable r.Owned := inferInstanceAs (Decidable (_ → _))

theorem bootstrapping_iff (r : ExchangeRate) :
    r.bootstrapping = true ↔ r.value.toNat = 0 ∨ r.supply.toNat = 0 := by
  simp [bootstrapping, Amount.isZero]

theorem bootstrapping_eq_false {r : ExchangeRate} (h : r.bootstrapping = false) :
    0 < r.value.toNat ∧ 0 < r.supply.toNat := by
  have := (bootstrapping_iff r).not.mp (by simp [h])
  omega

theorem mintAmount_ok {r : ExchangeRate} {d m : Amount} (h : r.mintAmount d = .ok m) :
    (r.bootstrapping = true ∧ m = d) ∨
      (r.bootstrapping = false ∧ m.toNat = d.toNat * r.supply.toNat / r.value.toNat) := by
  unfold mintAmount at h
  cases hb : r.bootstrapping
  · simp only [hb, Bool.false_eq_true, if_false] at h
    split at h
    · next a hmd =>
      cases h
      simp only [Amount.mulDiv?, Amount.ofNat?] at hmd
      split at hmd
      · cases hmd; exact .inr ⟨rfl, rfl⟩
      · cases hmd
    · cases h
  · simp only [hb, if_true] at h
    cases h
    exact .inl ⟨rfl, rfl⟩

theorem baseAmount_ok {r : ExchangeRate} {x b : Amount} (h : r.baseAmount x = .ok b) :
    (r.bootstrapping = true ∧ b = x) ∨
      (r.bootstrapping = false ∧ b.toNat = x.toNat * r.value.toNat / r.supply.toNat) := by
  unfold baseAmount at h
  cases hb : r.bootstrapping
  · simp only [hb, Bool.false_eq_true, if_false] at h
    split at h
    · next a hmd =>
      cases h
      simp only [Amount.mulDiv?, Amount.ofNat?] at hmd
      split at hmd
      · cases hmd; exact .inr ⟨rfl, rfl⟩
      · cases hmd
    · cases h
  · simp only [hb, if_true] at h
    cases h
    exact .inl ⟨rfl, rfl⟩

/-- A bound on what a derivative amount pays: the amount itself while bootstrapping,
otherwise the bound cross-multiplied by the supply. -/
theorem baseAmount_le {r : ExchangeRate} {x b : Amount} {n : Nat}
    (hboot : r.bootstrapping = true → x.toNat ≤ n)
    (hmul : x.toNat * r.value.toNat ≤ r.supply.toNat * n)
    (h : r.baseAmount x = .ok b) : b.toNat ≤ n := by
  rcases baseAmount_ok h with ⟨hb, rfl⟩ | ⟨_, hval⟩
  · exact hboot hb
  · rw [hval]
    exact Nat.div_le_of_le_mul hmul

/-- Derivative minted for `d` at an owned rate, or any part of it, pays at most `d` at the
rate the deposit leaves behind. -/
theorem baseAmount_after_mint_le {r r' : ExchangeRate} {d m x b : Amount} (ho : r.Owned)
    (hm : r.mintAmount d = .ok m)
    (hv : r'.value.toNat = r.value.toNat + d.toNat) (hs : r'.supply.toNat = r.supply.toNat + m.toNat)
    (hx : x.toNat ≤ m.toNat) (hb : r'.baseAmount x = .ok b) : b.toNat ≤ d.toNat := by
  rcases mintAmount_ok hm with ⟨hboot, rfl⟩ | ⟨hboot, hmint⟩
  · -- minted one for one: an owned rate that bootstraps has no value yet
    have hv0 : r.value.toNat = 0 := ((bootstrapping_iff r).mp hboot).elim id ho
    refine baseAmount_le (fun _ => hx) ?_ hb
    rw [hv, hs, hv0, Nat.zero_add]
    exact Nat.mul_le_mul_right _ (by omega)
  · -- the floor gives `m · value ≤ d · supply`, and the rate after the deposit has both
    -- sides positive
    have hfloor : m.toNat * r.value.toNat ≤ d.toNat * r.supply.toNat := by
      rw [hmint]; exact Nat.div_mul_le_self _ _
    obtain ⟨hV, hS⟩ := bootstrapping_eq_false hboot
    refine baseAmount_le (fun h' => ?_) ?_ hb
    · rw [bootstrapping_iff] at h'
      omega
    · rw [hv, hs]
      calc x.toNat * (r.value.toNat + d.toNat)
          ≤ m.toNat * (r.value.toNat + d.toNat) := Nat.mul_le_mul_right _ hx
        _ = m.toNat * r.value.toNat + m.toNat * d.toNat := Nat.mul_add _ _ _
        _ ≤ d.toNat * r.supply.toNat + m.toNat * d.toNat := Nat.add_le_add_right hfloor _
        _ = (r.supply.toNat + m.toNat) * d.toNat := by ring

end ExchangeRate

/-- A fee and the rest make up the amount split. -/
theorem splitFee_ok {a : Amount} {rate : Decimal} {sp : FeeSplit} (h : splitFee a rate = .ok sp) :
    sp.fee.toNat + sp.net.toNat = a.toNat := by
  unfold splitFee at h
  cases hfee : a.mulDecimal? rate with
  | none => simp [hfee] at h
  | some fee =>
    cases hnet : a.sub? fee with
    | none => simp [hfee, hnet] at h
    | some net =>
      simp only [hfee, hnet, Except.ok.injEq] at h
      subst h
      rw [Amount.sub?_eq_some_iff] at hnet
      show fee.toNat + net.toNat = a.toNat
      omega

/-! ## The value around a deposit -/

namespace Valuation

/-- The value of a rate is the recorded delegations, the rewards net of the restake fee, the
escrow and the idle base; its supply is the derivative's. -/
theorem value_rateWithRewards {s : State} {w : Amount} {r : ExchangeRate}
    (h : rateWithRewards s w = .ok r) :
    ∃ delegated split, totalDelegated s = .ok delegated ∧
      splitFee w ((s.params.map (·.fees.rates.restake)).getD Decimal.zero) = .ok split ∧
      r.value.toNat = delegated.toNat + split.net.toNat + s.pendingDeposits.toNat + s.hostIdle.toNat ∧
      r.supply = supply s := by
  unfold rateWithRewards aborting at h
  cases hd : totalDelegated s with
  | error e => simp [hd, bind, Except.bind] at h
  | ok delegated =>
    cases hf : splitFee w ((s.params.map (·.fees.rates.restake)).getD Decimal.zero) with
    | error e => simp [hd, hf, bind, Except.bind] at h
    | ok split =>
      refine ⟨delegated, split, rfl, rfl, ?_⟩
      simp only [hd, hf, bind, Except.bind] at h
      -- the value is three additions; an overflow in any of them aborts
      cases h1 : delegated.add? split.net with
      | none => simp [h1, throw, throwThe, MonadExceptOf.throw] at h
      | some a =>
        cases h2 : a.add? s.pendingDeposits with
        | none => simp [h1, h2, throw, throwThe, MonadExceptOf.throw] at h
        | some b =>
          cases h3 : b.add? s.hostIdle with
          | none => simp [h1, h2, h3, throw, throwThe, MonadExceptOf.throw] at h
          | some v =>
            simp only [h1, h2, h3, Option.bind_some, pure, Except.pure, Except.ok.injEq] at h
            subst h
            rw [Amount.add?_eq_some_iff] at h1 h2 h3
            exact ⟨show v.toNat = _ by omega, rfl⟩

theorem totalRewards_congr {s s' : State} (view : StakingView) (hc : s'.config = s.config)
    (hp : s'.params = s.params) (hd : s'.delegations = s.delegations)
    (hw : s'.hostRewards = s.hostRewards) : totalRewards s' view = totalRewards s view := by
  simp only [totalRewards, nativeRewards, hc, hp, hd, hw]

/-- Two states that differ at most in the escrow and the derivative ledger have rates whose
values differ by the escrow. -/
theorem currentRate_of_escrow {s s' : State} {view : StakingView} {r r' : ExchangeRate}
    (hc : s'.config = s.config) (hp : s'.params = s.params) (hd : s'.delegations = s.delegations)
    (hw : s'.hostRewards = s.hostRewards) (hi : s'.hostIdle = s.hostIdle)
    (hr : currentRate s view = .ok r) (hr' : currentRate s' view = .ok r') :
    r'.value.toNat + s.pendingDeposits.toNat = r.value.toNat + s'.pendingDeposits.toNat ∧
      r.supply = supply s ∧ r'.supply = supply s' := by
  unfold currentRate at hr hr'
  rw [totalRewards_congr view hc hp hd hw] at hr'
  cases ht : totalRewards s view with
  | error e => simp [ht, bind, Except.bind] at hr
  | ok w =>
    simp only [ht, bind, Except.bind] at hr hr'
    obtain ⟨del, sp, hdel, hsp, hv, hs⟩ := value_rateWithRewards hr
    obtain ⟨del', sp', hdel', hsp', hv', hs'⟩ := value_rateWithRewards hr'
    have htd : totalDelegated s' = totalDelegated s := by simp only [totalDelegated, hd]
    rw [htd, hdel, Except.ok.injEq] at hdel'
    rw [hp, hsp, Except.ok.injEq] at hsp'
    subst hdel' hsp'
    rw [hi] at hv'
    exact ⟨by omega, hs, hs'⟩

end Valuation

/-! ## What a deposit and an exit do -/

/-- A rejection ends the transaction, whatever was to follow it. -/
theorem run_reject_bind_ok {α β : Type} {e : Error} {f : α → Tx β} {s : State} {p : β × State} :
    (reject e >>= f).run s ≠ .ok p := fun h => by
  obtain ⟨_, _, h, -⟩ := run_bind_ok.mp h
  exact run_reject_ok h

theorem Token.mintDerivative_effect {s s' : State} {u : Unit} {h : String} {a : Amount}
    (hr : (Token.mintDerivative h a).run s = .ok (u, s')) :
    (Valuation.supply s').toNat = (Valuation.supply s).toNat + a.toNat ∧
      (∀ v, (Token.balanceOf s' v).toNat = (Token.balanceOf s v).toNat + if h = v then a.toNat else 0) ∧
      s'.pendingDeposits = s.pendingDeposits := by
  rcases Token.run_mintDerivative_ok.mp hr with ⟨hz, rfl⟩ | ⟨_, hm⟩
  · have : a.toNat = 0 := by simpa [Amount.isZero] using hz
    simp [this]
  · obtain ⟨t, supply, b, ht, hsup, -, hb, rfl⟩ := Token.run_mint_ok.mp hm
    rw [Amount.add?_eq_some_iff] at hsup hb
    refine ⟨by simp [Valuation.supply, ht, hsup], fun v => ?_, rfl⟩
    by_cases hv : h = v
    · subst hv
      simp [Token.balanceOf, Table.getD, Table.get?_insert, hb]
    · simp [Token.balanceOf, Table.getD, Table.get?_insert, hv]

/-- A deposit mints at the rate before it, grows the supply by the whole mint and the escrow
by the deposit, and credits the depositor at most the whole mint. -/
theorem Deposit.liquidStake_effect {env : Env} {u : String} {c : Coin} {s s' : State}
    {resp : Response} (hr : (Deposit.liquidStake env u [c]).run s = .ok (resp, s')) :
    ∃ r m, Valuation.currentRate s env.staking = .ok r ∧ r.mintAmount c.amount = .ok m ∧
      (Valuation.supply s').toNat = (Valuation.supply s).toNat + m.toNat ∧
      s'.pendingDeposits.toNat = s.pendingDeposits.toNat + c.amount.toNat ∧
      (Token.balanceOf s' u).toNat ≤ (Token.balanceOf s u).toNat + m.toNat := by
  simp only [Deposit.liquidStake, Deposit.oneCoin, run_bind_ok, run_operational_ok, run_config_ok,
    run_ofError_ok, Except.ok.injEq] at hr
  obtain ⟨params, _, ⟨-, -, -, rfl⟩, config, _, ⟨-, rfl⟩, _, _, ⟨rfl, rfl⟩, hr⟩ := hr
  split at hr
  · exact absurd hr run_reject_bind_ok
  split at hr
  · exact absurd hr run_reject_bind_ok
  simp only [run_bind_ok, run_read_ok, run_ofAbort_ok] at hr
  obtain ⟨rate, _, ⟨hrate, rfl⟩, m, _, ⟨hm, rfl⟩, hr⟩ := hr
  split at hr
  · exact absurd hr run_reject_bind_ok
  simp only [run_bind_ok, run_ofAbort_ok] at hr
  obtain ⟨sp, _, ⟨hsp, rfl⟩, _, s₁, h₁, _, s₂, h₂, hr⟩ := hr
  simp only [run_get_ok, run_add_ok, run_modify_ok, run_pure_ok] at hr
  obtain ⟨_, _, ⟨rfl, rfl⟩, pending, _, ⟨hpending, rfl⟩, _, _, rfl, -, rfl⟩ := hr
  -- the two mints add the rest and the fee, together the minted amount
  have hm' := splitFee_ok hsp
  obtain ⟨hs₁, hb₁, hp₁⟩ := Token.mintDerivative_effect h₁
  obtain ⟨hs₂, hb₂, hp₂⟩ := Token.mintDerivative_effect h₂
  rw [Amount.add?_eq_some_iff] at hpending
  refine ⟨rate, m, hrate, hm, ?_, ?_, ?_⟩
  · show (Valuation.supply s₂).toNat = _
    omega
  · show pending.toNat = _
    rw [hpending, hp₂, hp₁]
  · show (Token.balanceOf s₂ u).toNat ≤ _
    have h₁u := hb₁ u
    have h₂u := hb₂ u
    rw [if_pos rfl] at h₁u
    split at h₂u <;> omega

/-- A redemption pays out of escrow what its derivative, less the fee, is worth at the rate
before it. -/
theorem Exit.redeem_effect {env : Env} {u : String} {a : Amount} {s s' : State} {resp : Response}
    (hr : (Exit.redeem env u a).run s = .ok (resp, s')) :
    ∃ r x payout, Valuation.currentRate s env.staking = .ok r ∧ x.toNat ≤ a.toNat ∧
      r.baseAmount x = .ok payout ∧
      s.pendingDeposits.toNat - s'.pendingDeposits.toNat = payout.toNat := by
  simp only [Exit.redeem, run_bind_ok, run_operational_ok, run_config_ok] at hr
  obtain ⟨params, _, ⟨-, -, -, rfl⟩, config, _, ⟨-, rfl⟩, hr⟩ := hr
  split at hr
  · exact absurd hr run_reject_bind_ok
  simp only [run_bind_ok, run_read_ok, run_ofAbort_ok] at hr
  obtain ⟨rate, _, ⟨hrate, rfl⟩, sp, _, ⟨hsp, rfl⟩, payout, _, ⟨hpay, rfl⟩, hr⟩ := hr
  split at hr
  · exact absurd hr run_reject_bind_ok
  simp only [run_get_bind] at hr
  split at hr
  · exact absurd hr run_reject_bind_ok
  next hreserve =>
  simp only [run_bind_ok, run_modify_ok, run_pure_ok] at hr
  obtain ⟨_, s₁, -, _, s₂, -, _, _, rfl, -, rfl⟩ := hr
  refine ⟨rate, sp.net, payout, hrate, by have := splitFee_ok hsp; omega, hpay, ?_⟩
  show s.pendingDeposits.toNat - (s.pendingDeposits.satSub payout).toNat = payout.toNat
  simp only [Amount.satSub]
  exact Nat.sub_sub_self (Nat.le_of_not_lt hreserve)

open Std.Do in
/-- An unstake records under the caller's fresh id what its derivative, less the fee, is worth
at the rate before it. -/
theorem Exit.liquidUnstake_spec {env : Env} {u : String} {a : Amount} {s₀ : State} :
    ⦃fun s => ⌜s = s₀⌝⦄ Exit.liquidUnstake env u a
    ⦃⇓? _ s => ⌜∃ r x unbond, Valuation.currentRate s₀ env.staking = .ok r ∧ x.toNat ≤ a.toNat ∧
      r.baseAmount x = .ok unbond ∧
      ∃ maturity, s.records.get? (u, s.lastRecordId) = some ⟨u, unbond, maturity⟩⌝⦄ := by
  mvcgen [Exit.liquidUnstake, Exit.joinBatch, Cycle.harvestNative_writes, Recording.recordAll_writes,
    Transport.queue_spec]
  all_goals
    cases_type* And
    subst_vars
    refine ⟨_, _, _, ‹_›, ?_, ‹_›, ?_⟩
    · have := splitFee_ok ‹splitFee a _ = _›
      omega
    · -- nothing after the record's write touches the records or the last id
      refine ⟨‹Timestamp›, ?_⟩
      simp +zetaDelta only [Table.get?_insert, if_pos]

/-! ## Round trips -/

/-- A committed execute message is its entry point's committed run. -/
theorem Session.execute_run_ok {env : Env} {u : String} {funds : List Coin} {m : ExecuteMsg}
    {s s' : State} {out : Response × List String}
    (h : (Session.transaction env (.execute u funds m)).run s = .ok (out, s')) :
    ∃ resp, (Contract.execute env u funds m).run s = .ok (resp, s') := by
  simp only [Session.transaction, StateT.run_map] at h
  cases hx : (Contract.execute env u funds m).run s with
  | error e => simp [hx, Functor.map, Except.map] at h
  | ok p =>
    simp only [hx, Functor.map, Except.map, Except.ok.injEq, Prod.ext_iff] at h
    exact ⟨p.1, by rw [← h.2]⟩

/-- Right after a deposit minted at an owned rate, every exit of at most what the deposit
credited its depositor, valued at the rate the deposit left, is worth at most the deposit. -/
theorem exit_after_deposit_le {env : Env} {u : String} {c : Coin} {s s₁ : State}
    {r : ExchangeRate} {out : Response × List String}
    (hrate : Valuation.currentRate s env.staking = .ok r) (howned : r.Owned)
    (hdeposit : (Session.transaction env (.execute u [c] .liquidStake)).run s = .ok (out, s₁))
    {r' : ExchangeRate} (hrate' : Valuation.currentRate s₁ env.staking = .ok r')
    {a x b : Amount} (ha : a.toNat ≤ (Token.balanceOf s₁ u).toNat - (Token.balanceOf s u).toNat)
    (hx : x.toNat ≤ a.toNat) (hb : r'.baseAmount x = .ok b) : b.toNat ≤ c.amount.toNat := by
  obtain ⟨resp, hdep⟩ := Session.execute_run_ok hdeposit
  obtain ⟨r₀, m, hr₀, hm, hsupply, hescrow, hbalance⟩ := Deposit.liquidStake_effect hdep
  rw [hrate, Except.ok.injEq] at hr₀
  subst hr₀
  -- a deposit writes the derivative ledger and the escrow only
  have hw := transaction_restrict hdeposit
  have field {γ : Type} (f : State → γ) (hf : ∀ t : State, f (t.restrict [.token, .balances,
      .pendingDeposits]) = f t) : f s₁ = f s := by
    rw [← hf s₁, ← hf s]; exact congrArg f hw
  obtain ⟨hv, hs, hs'⟩ := Valuation.currentRate_of_escrow (field _ fun _ => rfl)
    (field _ fun _ => rfl) (field _ fun _ => rfl) (field _ fun _ => rfl) (field _ fun _ => rfl)
    hrate hrate'
  refine ExchangeRate.baseAmount_after_mint_le howned hm (by omega) ?_ (by omega) hb
  rw [hs', hs]
  exact hsupply

/-- From `s₁`, reached from `s` by a deposit of `d`, every redemption or unstake by `u` of at most
what `u` gained in between, under the view of `env`, pays back at most `d`: the base a
redemption pays out of escrow, and the amount an unstake records under `u`'s fresh id. -/
structure PaysBackAtMost (env : Env) (u : String) (d : Amount) (s s₁ : State) : Prop where
  redeem : ∀ funds a out s₂, a.toNat ≤ (Token.balanceOf s₁ u).toNat - (Token.balanceOf s u).toNat →
    (Session.transaction env (.execute u funds (.redeem a))).run s₁ = .ok (out, s₂) →
    s₁.pendingDeposits.toNat - s₂.pendingDeposits.toNat ≤ d.toNat
  unstake : ∀ funds a out s₂, a.toNat ≤ (Token.balanceOf s₁ u).toNat - (Token.balanceOf s u).toNat →
    (Session.transaction env (.execute u funds (.liquidUnstake a))).run s₁ = .ok (out, s₂) →
    ∃ rec, s₂.records.get? (u, s₂.lastRecordId) = some rec ∧ rec.amount.toNat ≤ d.toNat

/-- A deposit minted at a rate that owns its value cannot be taken back at a profit: the next
call, under the same staking view, redeeming or unstaking what the deposit credited pays back
at most the deposit, whatever the fee rates. -/
theorem round_trip_no_gain {env env' : Env} {u : String} {c : Coin} {s s₁ : State}
    {r : ExchangeRate} {out : Response × List String}
    (hrate : Valuation.currentRate s env.staking = .ok r) (howned : r.Owned)
    (hdeposit : (Session.transaction env (.execute u [c] .liquidStake)).run s = .ok (out, s₁))
    (hview : env'.staking = env.staking) : PaysBackAtMost env' u c.amount s s₁ where
  redeem funds a out' s₂ ha hexit := by
    obtain ⟨resp, hrun⟩ := Session.execute_run_ok hexit
    obtain ⟨r', x, payout, hr', hx, hpay, hpaid⟩ := Exit.redeem_effect hrun
    rw [hview] at hr'
    rw [hpaid]
    exact exit_after_deposit_le hrate howned hdeposit hr' ha hx hpay
  unstake funds a out' s₂ ha hexit := by
    obtain ⟨resp, hrun⟩ := Session.execute_run_ok hexit
    obtain ⟨r', x, unbond, hr', hx, hunbond, maturity, hrec⟩ :=
      Triple.run_ok Exit.liquidUnstake_spec rfl hrun
    rw [hview] at hr'
    exact ⟨_, hrec, exit_after_deposit_le hrate howned hdeposit hr' ha hx hunbond⟩

/-! ## Runs of a session -/

/-- Steps other than a creation keep a session's state reachable. -/
theorem Session.foldl_step_reachable {se : Session} (h : Reachable se.state) {steps : List Step}
    (hc : ∀ st ∈ steps, ∀ m, st ≠ .call (.instantiate m)) :
    Reachable (steps.foldl (fun se st => (se.step st).1) se).state := by
  induction steps generalizing se with
  | nil => exact h
  | cons st rest ih =>
    exact ih (Session.step_reachable h (hc st List.mem_cons_self))
      fun st' hst' => hc st' (List.mem_cons_of_mem st hst')

/-- A call that commits leaves the session in the state its run gives. -/
theorem Session.step_committed {se : Session} {c : Call}
    (h : ((Session.transaction se.env c).run se.state).isOk = true) :
    ∃ out, (Session.transaction se.env c).run se.state = .ok (out, (se.step (.call c)).1.state) := by
  cases hr : (Session.transaction se.env c).run se.state with
  | error f => rw [hr] at h; cases h
  | ok p =>
    obtain ⟨out, s'⟩ := p
    exact ⟨out, by simp only [Session.step, hr]⟩

namespace RoundTrip

/-- A validator operator address. -/
def validator : String := "cosmosvaloper1qgpqyqszqgpqyqszqgpqyqszqgpqyqszxrnw2e"

/-- Registration of a host chain with one validator, a forty percent unstake fee and no other
fee. -/
def registration : JumpStartMsg :=
  ⟨"gaia-1", "connection-0", "channel-0", "transfer", "uatom", "stk/uatom", ⟨1, by decide⟩,
    [⟨validator, Decimal.one⟩],
    ⟨Decimal.zero, Decimal.zero, Decimal.percent 40 (by decide), Decimal.zero⟩,
    "feecollector", "gaia-1.delegation", "gaia-1.rewards"⟩

/-- The voucher denomination deposits arrive in on the interchain ledger. -/
def voucher : String := Denom.ibcDenom "transfer" "channel-0" "uatom"

/-- Creation on the native ledger and registration. -/
def fresh : Session :=
  [.call (.instantiate ⟨"admin", .native, 100, none, none, none, none⟩),
    .call (.execute "admin" [] (.jumpStart registration))].foldl (fun se st => (se.step st).1)
    (Session.start Session.startTime)

/-- Creation on the interchain ledger and registration, both host accounts opened, then 300
of rewards observed, restaked and delegated while no derivative exists. -/
def orphanedSteps : List Step :=
  [.call (.execute "admin" [] (.jumpStart registration)),
    .call (.privileged (.openAck "gaia-1.rewards" "cosmos1rewards")),
    .call (.privileged (.openAck "gaia-1.delegation" "cosmos1delegator")),
    .call (.privileged (.packetResult "gaia-1.delegation" 1 .success)),
    .call (.privileged (.observe (.rewards ⟨300, by decide⟩))),
    .call (.privileged .endBlock),
    .call (.privileged (.packetResult "gaia-1.rewards" 1 .success)),
    .call (.privileged .endBlock),
    .call (.privileged (.packetResult "gaia-1.delegation" 2 .success))]

/-- The interchain module created. -/
def created : Session :=
  ((Session.start Session.startTime).step
    (.call (.instantiate ⟨"admin", .interchain, 100, none, some "transport", none, none⟩))).1

/-- The interchain module with 300 delegated and no derivative. -/
def orphaned : Session := orphanedSteps.foldl (fun se st => (se.step st).1) created

/-- A deposit of 100 into the freshly registered module. -/
def freshDeposit : Call := .execute "user" [⟨"uatom", ⟨100, by decide⟩⟩] .liquidStake

/-- A deposit of 100 into the orphaned module. -/
def deposit : Call := .execute "user" [⟨voucher, ⟨100, by decide⟩⟩] .liquidStake

/-- The orphaned module after the deposit. -/
def deposited : Session := (orphaned.step (.call deposit)).1

/-- An unstake of the 100 derivative the deposit minted. -/
def unstake : Call := .execute "user" [] (.liquidUnstake ⟨100, by decide⟩)

/-- The module after the unstake. -/
def unstaked : Session := (deposited.step (.call unstake)).1

end RoundTrip

/-- A deposit of 100 into a freshly registered native module, at a rate empty on both sides. -/
theorem round_trip_no_gain_fresh :
    ∃ out, Valuation.currentRate RoundTrip.fresh.state RoundTrip.fresh.env.staking =
        .ok ⟨Amount.zero, Amount.zero⟩ ∧ (⟨Amount.zero, Amount.zero⟩ : ExchangeRate).Owned ∧
      (Session.transaction RoundTrip.fresh.env RoundTrip.freshDeposit).run RoundTrip.fresh.state =
        .ok (out, (RoundTrip.fresh.step (.call RoundTrip.freshDeposit)).1.state) ∧
      PaysBackAtMost RoundTrip.fresh.env "user" ⟨100, by decide⟩ RoundTrip.fresh.state
        (RoundTrip.fresh.step (.call RoundTrip.freshDeposit)).1.state := by
  obtain ⟨out, hdeposit⟩ := Session.step_committed (by decide +kernel :
    ((Session.transaction RoundTrip.fresh.env RoundTrip.freshDeposit).run
      RoundTrip.fresh.state).isOk = true)
  have hrate : Valuation.currentRate RoundTrip.fresh.state RoundTrip.fresh.env.staking =
      .ok ⟨Amount.zero, Amount.zero⟩ := by decide +kernel
  exact ⟨out, hrate, fun _ => rfl, hdeposit,
    round_trip_no_gain hrate (fun _ => rfl) hdeposit rfl⟩

set_option maxRecDepth 10000 in
/-- With 300 delegated and no derivative outstanding, a reachable state, a deposit of 100 is
minted one for one, and unstaking those 100 at once records 240. -/
theorem round_trip_gains_at_unowned_rate :
    Reachable RoundTrip.orphaned.state ∧
      Valuation.currentRate RoundTrip.orphaned.state RoundTrip.orphaned.env.staking =
        .ok ⟨⟨300, by decide⟩, Amount.zero⟩ ∧
      (∃ out, (Session.transaction RoundTrip.orphaned.env RoundTrip.deposit).run
        RoundTrip.orphaned.state = .ok (out, RoundTrip.deposited.state)) ∧
      (Token.balanceOf RoundTrip.deposited.state "user").toNat -
        (Token.balanceOf RoundTrip.orphaned.state "user").toNat = 100 ∧
      (∃ out, (Session.transaction RoundTrip.deposited.env RoundTrip.unstake).run
        RoundTrip.deposited.state = .ok (out, RoundTrip.unstaked.state)) ∧
      (RoundTrip.unstaked.state.records.get? ("user", RoundTrip.unstaked.state.lastRecordId)).map
        (·.amount.toNat) = some 240 := by
  have hcreated : Reachable RoundTrip.created.state :=
    @Reachable.created (Session.start Session.startTime).env
      ⟨"admin", .interchain, 100, none, some "transport", none, none⟩ _ _ (by rfl)
  -- one evaluation of the whole run
  obtain ⟨hrate, hdeposit, hminted, hunstake, hrecord⟩ :
      Valuation.currentRate RoundTrip.orphaned.state RoundTrip.orphaned.env.staking =
        .ok ⟨⟨300, by decide⟩, Amount.zero⟩ ∧
      ((Session.transaction RoundTrip.orphaned.env RoundTrip.deposit).run
        RoundTrip.orphaned.state).isOk = true ∧
      (Token.balanceOf RoundTrip.deposited.state "user").toNat -
        (Token.balanceOf RoundTrip.orphaned.state "user").toNat = 100 ∧
      ((Session.transaction RoundTrip.deposited.env RoundTrip.unstake).run
        RoundTrip.deposited.state).isOk = true ∧
      (RoundTrip.unstaked.state.records.get? ("user", RoundTrip.unstaked.state.lastRecordId)).map
        (·.amount.toNat) = some 240 := by decide +kernel
  refine ⟨Session.foldl_step_reachable hcreated ?_, hrate, Session.step_committed hdeposit, hminted,
    Session.step_committed hunstake, hrecord⟩
  intro st hst m
  simp only [RoundTrip.orphanedSteps, List.mem_cons, List.not_mem_nil, or_false] at hst
  rcases hst with rfl | rfl | rfl | rfl | rfl | rfl | rfl | rfl | rfl <;> simp

end LiquidStaking
