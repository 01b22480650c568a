import LiquidStaking.Session

/-! # Reachable states

A module is created once, by its creation message on empty storage. Afterwards it receives
calls of every other kind, each under whatever block and staking view the chain shows, and a
call that fails leaves the state as it was. `Reachable` holds of exactly the states so
reached; an invariant of the module is proved by induction on it: it holds after creation
and every committed call keeps it.

A session passes only through reachable states once its module is created.
-/
namespace LiquidStaking

/-- Whether a call can reach a created module: every call but creation. -/
def Call.IsOperation : Call → Prop
  | .instantiate _ => False
  | _ => True

/-- The states a created module reaches. -/
inductive Reachable : State → Prop
  /-- Creation on empty storage. -/
  | created {env : Env} {m : InstantiateMsg} {r : Response × List String} {s : State} :
      (Session.transaction env (.instantiate m)).run State.empty = .ok (r, s) → Reachable s
  /-- A committed call, under any block and staking view. -/
  | step {env : Env} {c : Call} {r : Response × List String} {s s' : State} :
      Reachable s → c.IsOperation → (Session.transaction env c).run s = .ok (r, s') → Reachable s'

/-- The states a created module reaches along a run whose block time never goes back, with
the time of the last committed call. -/
inductive TimedReachable : State → Timestamp → Prop
  /-- Creation on empty storage. -/
  | created {env : Env} {m : InstantiateMsg} {r : Response × List String} {s : State} :
      (Session.transaction env (.instantiate m)).run State.empty = .ok (r, s) →
      TimedReachable s env.block.time
  /-- A committed call at a time no earlier than the last one. -/
  | step {env : Env} {c : Call} {r : Response × List String} {s s' : State} {t : Timestamp} :
      TimedReachable s t → c.IsOperation → t ≤ env.block.time →
      (Session.transaction env c).run s = .ok (r, s') → TimedReachable s' env.block.time

theorem TimedReachable.reachable {s : State} {t : Timestamp} (h : TimedReachable s t) :
    Reachable s := by
  induction h with
  | created hr => exact .created hr
  | step _ hc _ hr ih => exact .step ih hc hr

/-- The states a module passes through from a given one: committed calls other than
creation, each under any block and staking view. -/
inductive Reaches : State → State → Prop
  | refl {s : State} : Reaches s s
  | step {env : Env} {c : Call} {r : Response × List String} {s s' s'' : State} :
      c.IsOperation → (Session.transaction env c).run s = .ok (r, s') → Reaches s' s'' →
      Reaches s s''

theorem Reachable.reaches {s s' : State} (h : Reachable s) (hr : Reaches s s') : Reachable s' := by
  induction hr with
  | refl => exact h
  | step hc hs _ ih => exact ih (.step h hc hs)

/-- A session step other than a creation keeps the session's state reachable. -/
theorem Session.step_reachable {se : Session} {st : Step} (h : Reachable se.state)
    (hc : ∀ m, st ≠ .call (.instantiate m)) : Reachable (se.step st).1.state := by
  cases st with
  | call c =>
    have hop : c.IsOperation := by
      cases c with
      | instantiate m => exact absurd rfl (hc m)
      | _ => trivial
    simp only [Session.step]
    split
    · next r d s hr => exact .step h hop hr
    · exact h
  | query q =>
    simp only [Session.step]
    split <;> exact h
  | advance seconds blocks =>
    simp only [Session.step]
    split <;> exact h
  | setTime time height => exact h
  | chain view => exact h

end LiquidStaking
