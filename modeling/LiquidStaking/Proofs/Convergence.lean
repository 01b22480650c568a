import Mathlib
import LiquidStaking.Proofs.Planner

/-! # Convergence of rebalancing

Over delegations that add up to the total the desired amounts split, the surpluses add up to
the deficits, and one pass of the planner with room for its moves settles every validator at
its desired amount.

The count is a potential argument: every move of a fill closes an open deficit except
perhaps the last, which spends the source, so after `k` sources the moves and the deficits
still open number at most `k` plus the deficits the walk started with, and once none is open
the move that closed the last one was counted. A plan thus makes at most one move fewer than
there are sources and deficits.

The settling follows from the balance: when the plan has room for every move, each fill
spends its whole surplus (the open deficits cover it), so every source gives exactly its
surplus and every deficit is met. Recording the moves against the delegations commits, as no
move overdraws its source nor takes a destination past its desired amount, and leaves each
validator at its desired amount, where the planner finds nothing more to move.
-/
namespace LiquidStaking.Table

variable {κ α : Type} [Ord κ] [Std.LawfulEqOrd κ] [DecidableEq κ] {k : κ} {v : α}

/-- Inserting entries leaves a key none of them has as it was. -/
theorem get?_foldl_insert_of_not_mem :
    ∀ {l : List (κ × α)} (t : Table κ α), k ∉ l.map Prod.fst →
      (l.foldl (fun t e => t.insert e.1 e.2) t).get? k = t.get? k
  | [], _, _ => rfl
  | e :: l, t, hk => by
    rw [List.map_cons, List.mem_cons, not_or] at hk
    rw [List.foldl_cons, get?_foldl_insert_of_not_mem _ hk.2, get?_insert, if_neg (Ne.symm hk.1)]

/-- Inserting entries with distinct keys binds each of their keys to its entry's value. -/
theorem get?_foldl_insert_of_mem :
    ∀ {l : List (κ × α)} (t : Table κ α), (l.map Prod.fst).Nodup → (k, v) ∈ l →
      (l.foldl (fun t e => t.insert e.1 e.2) t).get? k = some v
  | e :: l, t, hnd, hmem => by
    obtain ⟨hnotin, hnd⟩ := List.nodup_cons.mp hnd
    rw [List.foldl_cons]
    rcases List.mem_cons.mp hmem with rfl | hmem
    · rw [get?_foldl_insert_of_not_mem _ hnotin, get?_insert, if_pos rfl]
    · exact get?_foldl_insert_of_mem _ hnd hmem

omit [DecidableEq κ] in
theorem Sorted.nodup_keys {t : Table κ α} (h : t.Sorted) : (t.entries.map Prod.fst).Nodup := by
  refine List.pairwise_map.mpr (h.imp fun hlt heq => ?_)
  rw [heq, compare_eq_iff.mpr rfl] at hlt
  cases hlt

/-- A table built from entries with distinct keys holds exactly those entries. -/
theorem perm_ofList [Std.TransOrd κ] {l : List (κ × α)} (hnd : (l.map Prod.fst).Nodup) :
    (ofList l).entries.Perm l := by
  have hs : (ofList l).Sorted := sorted_ofList l
  refine (List.perm_ext_iff_of_nodup (hs.nodup_keys.of_map _) (hnd.of_map _)).mpr fun e => ?_
  rw [← hs.get?_eq_some_iff]
  constructor
  · intro h
    by_cases hk : e.1 ∈ l.map Prod.fst
    · obtain ⟨⟨k', v'⟩, hmem, hk'⟩ := List.mem_map.mp hk
      rw [← hk', ofList, get?_foldl_insert_of_mem _ hnd hmem, Option.some_inj] at h
      rwa [show e = (k', v') from Prod.ext hk'.symm h.symm]
    · rw [ofList, get?_foldl_insert_of_not_mem _ hk, get?_empty] at h
      cases h
  · intro he
    exact get?_foldl_insert_of_mem _ hnd he

end LiquidStaking.Table

namespace LiquidStaking.Rebalance

open Table

section Fill

variable (src : String) (room : Nat) (surplus : Amount) (ds : List (String × Amount))

/-- Every move of a fill closes an open deficit but possibly the last, which spends the
surplus and leaves its deficit open: the moves and the deficits left open outnumber the open
deficits by at most one, and not at all once every deficit is closed. -/
theorem fill_count :
    (fill src room surplus ds).1.length + (fill src room surplus ds).2.length ≤ ds.length + 1 ∧
      ((fill src room surplus ds).2 = [] → (fill src room surplus ds).1.length ≤ ds.length) := by
  fun_induction fill src room surplus ds with
  | case1 => simp
  | case2 => simp
  | case3 room surplus dst deficit rest hgo amount heq moves open_ hrec ih =>
    simp only [hrec] at ih
    obtain ⟨hlen, hclosed⟩ := ih
    refine ⟨by simp only [List.length_cons]; omega, fun hopen => ?_⟩
    have := hclosed hopen
    simp only [List.length_cons]
    omega
  | case4 => exact ⟨by simp only [List.length_cons, List.length_nil]; omega,
      fun h => absurd h (List.cons_ne_nil _ _)⟩

/-- What a fill moves and what it leaves open make up what was open. -/
theorem fill_total :
    ((fill src room surplus ds).1.map (·.amount.toNat)).sum +
      ((fill src room surplus ds).2.map (·.2.toNat)).sum = (ds.map (·.2.toNat)).sum := by
  fun_induction fill src room surplus ds with
  | case1 => simp
  | case2 => simp
  | case3 room surplus dst deficit rest hgo amount heq moves open_ hrec ih =>
    simp only [hrec] at ih
    have hamt : amount.toNat = deficit.toNat := Amount.beq_iff_toNat.mp heq
    simp only [List.map_cons, List.sum_cons]
    omega
  | case4 room surplus dst deficit rest hgo amount hne =>
    have hmin : amount.toNat = min surplus.toNat deficit.toNat := Amount.toNat_min
    simp only [List.map_cons, List.sum_cons, List.map_nil, List.sum_nil, Amount.toNat_satSub]
    omega

/-- With room for a move per open deficit and no more surplus than they add up to, a fill
spends the whole surplus. -/
theorem fill_spends (hroom : ds.length ≤ room)
    (hcover : surplus.toNat ≤ (ds.map (·.2.toNat)).sum) :
    ((fill src room surplus ds).1.map (·.amount.toNat)).sum = surplus.toNat := by
  fun_induction fill src room surplus ds with
  | case1 => simp at hcover ⊢; omega
  | case2 room surplus dst deficit rest hstop =>
    have : surplus.toNat = 0 ∨ room = 0 := by simpa using hstop
    simp only [List.length_cons] at hroom
    simp
    omega
  | case3 room surplus dst deficit rest hgo amount heq moves open_ hrec ih =>
    have hamt : amount.toNat = deficit.toNat := Amount.beq_iff_toNat.mp heq
    have hmin : amount.toNat = min surplus.toNat deficit.toNat := Amount.toNat_min
    simp only [List.length_cons, List.map_cons, List.sum_cons] at hroom hcover
    have := ih (by omega) (by simp only [Amount.toNat_satSub]; omega)
    simp only [hrec] at this
    simp only [List.map_cons, List.sum_cons, Amount.toNat_satSub] at this ⊢
    omega
  | case4 room surplus dst deficit rest hgo amount hne =>
    have hamt : amount.toNat ≠ deficit.toNat := fun h => hne (Amount.beq_iff_toNat.mpr h)
    have hmin : amount.toNat = min surplus.toNat deficit.toNat := Amount.toNat_min
    simp only [List.map_cons, List.sum_cons, List.map_nil, List.sum_nil]
    omega

end Fill

section Count

/-- The move count `n` of a plan once `k` sources are examined and `ds` of the `D` deficits
the walk started with are still open: every move closed a deficit or spent a source, and the
move that met the last deficit closed it. -/
def Counted (D k n : Nat) (ds : List (String × Amount)) : Prop :=
  n + ds.length ≤ k + D ∧ (0 < n → ds = [] → n + 1 ≤ k + D)

variable {D k n : Nat} {ds : List (String × Amount)}

theorem Counted.le (h : Counted D k n ds) : n ≤ k + D - 1 := by
  obtain ⟨hopen, hclosed⟩ := h
  rcases ds with _ | ⟨e, ds⟩
  · rcases Nat.eq_zero_or_pos n with rfl | hn
    · exact Nat.zero_le _
    · have := hclosed hn rfl
      omega
  · simp only [List.length_cons] at hopen
    omega

theorem Counted.succ (h : Counted D k n ds) : Counted D (k + 1) n ds :=
  ⟨by have := h.1; omega, fun hn hds => by have := h.2 hn hds; omega⟩

variable {inCooldown : String → Bool} {maxEntries : Nat}

/-- A walk plans at most one move fewer than there are sources and deficits. -/
theorem walk_length_le {rest ds : List (String × Amount)} {p : Plan} :
    ∀ {k}, Counted D k p.redelegations.length ds →
      (walk inCooldown maxEntries rest ds p).redelegations.length ≤ k + rest.length + D - 1 := by
  fun_induction walk inCooldown maxEntries rest ds p with
  | case1 plan =>
    intro k h
    have := h.le
    simp only [List.length_nil]
    omega
  | case2 src surplus rest deficits plan hstop =>
    intro k h
    have := h.le
    simp only [List.length_cons]
    omega
  | case3 src surplus rest deficits plan hgo hcool ih =>
    intro k h
    have := ih h.succ
    simp only [List.length_cons]
    omega
  | case4 src surplus rest deficits plan hgo hcool moves open_ hfill ih =>
    intro k h
    obtain ⟨hcount, hclosed⟩ := fill_count src (maxEntries - plan.redelegations.length) surplus deficits
    simp only [hfill] at hcount hclosed
    obtain ⟨hopen, hlast⟩ := h
    -- the fill adds at most one move beyond the deficits it closes, and none when it closes all
    have hstep : Counted D (k + 1) (plan.redelegations ++ moves).length open_ := by
      refine ⟨by simp only [List.length_append]; omega, fun _ hnil => ?_⟩
      have := hclosed hnil
      simp only [List.length_append]
      omega
    have := ih hstep
    simp only [List.length_cons]
    omega

end Count

/-- Positive entries that add up to nothing are none. -/
theorem eq_nil_of_sum_eq_zero {l : List (String × Amount)} (hpos : ∀ e ∈ l, 0 < e.2.toNat)
    (h0 : (l.map (·.2.toNat)).sum = 0) : l = [] := by
  rcases l with _ | ⟨e, l⟩
  · rfl
  · have := hpos e List.mem_cons_self
    simp only [List.map_cons, List.sum_cons] at h0
    omega

section Drain

/-- What the walk keeps when the plan has room for every move: the sources examined gave up
exactly their surplus, the surpluses still to come add up to the deficits still open, and
every move closed a deficit or spent a source. -/
structure Draining (maxEntries D : Nat) (done rest ds : List (String × Amount)) (p : Plan) :
    Prop where
  spent : ∀ v, movedOut p.redelegations v = amountOf done v
  balance : (rest.map (·.2.toNat)).sum = (ds.map (·.2.toNat)).sum
  count : p.redelegations.length + ds.length ≤ done.length + D
  room : done.length + rest.length + D ≤ maxEntries + 1
  rest_pos : ∀ e ∈ rest, 0 < e.2.toNat
  open_pos : ∀ e ∈ ds, 0 < e.2.toNat

variable {inCooldown : String → Bool} {maxEntries D : Nat}

/-- A walk with room for every move, over sources none of which cools, spends every surplus
and meets every deficit. -/
theorem walk_drains {rest ds : List (String × Amount)} {p : Plan} :
    ∀ {done}, Draining maxEntries D done rest ds p → (∀ e ∈ rest, inCooldown e.1 = false) →
      (∀ v, movedOut (walk inCooldown maxEntries rest ds p).redelegations v =
        amountOf (done ++ rest) v) ∧
      ∀ v, movedIn (walk inCooldown maxEntries rest ds p).redelegations v =
        movedIn p.redelegations v + amountOf ds v := by
  fun_induction walk inCooldown maxEntries rest ds p with
  | case1 plan =>
    intro done h _
    -- with no surplus left the balance leaves no deficit open
    have hds := eq_nil_of_sum_eq_zero h.open_pos (by simpa using h.balance.symm)
    subst hds
    exact ⟨fun v => by simpa using h.spent v, fun v => by simp⟩
  | case2 src surplus rest deficits plan hstop =>
    intro done h _
    have hs : 0 < surplus.toNat := h.rest_pos (src, surplus) List.mem_cons_self
    have hbal := h.balance
    have hroom := h.room
    have hcount := h.count
    simp only [List.map_cons, List.sum_cons, List.length_cons] at hbal hroom
    -- a positive surplus still to come leaves a deficit open, and the plan has room for it
    have hne : deficits ≠ [] := by
      rintro rfl
      simp only [List.map_nil, List.sum_nil] at hbal
      omega
    have hlen : 1 ≤ deficits.length := List.length_pos_iff.mpr hne
    have : ¬(deficits.isEmpty || decide (maxEntries ≤ plan.redelegations.length)) = true := by
      simp only [Bool.or_eq_true, List.isEmpty_iff, decide_eq_true_eq, not_or]
      exact ⟨hne, by omega⟩
    exact absurd hstop this
  | case3 src surplus rest deficits plan hgo hcool ih =>
    intro done _ hno
    rw [hno (src, surplus) List.mem_cons_self] at hcool
    cases hcool
  | case4 src surplus rest deficits plan hgo hcool moves open_ hfill ih =>
    intro done h hno
    have hbal := h.balance
    have hroom := h.room
    have hcount := h.count
    simp only [List.map_cons, List.sum_cons, List.length_cons] at hbal hroom
    have hgo' : plan.redelegations.length < maxEntries := (by simpa using hgo : _ ∧ _).2
    obtain ⟨hlen, -⟩ := fill_count src (maxEntries - plan.redelegations.length) surplus deficits
    have htotal := fill_total src (maxEntries - plan.redelegations.length) surplus deficits
    have hspent := fill_spends src (maxEntries - plan.redelegations.length) surplus deficits
      (by omega) (by omega)
    obtain ⟨hin, -, -⟩ := fill_flow src (maxEntries - plan.redelegations.length) surplus deficits
    obtain ⟨-, -, hpos⟩ := fill_budget src (maxEntries - plan.redelegations.length) surplus deficits
    have hsrc : ∀ r ∈ moves, r.src = src := fun r hr => src_of_mem_fill (by rw [hfill]; exact hr)
    simp only [hfill] at hlen htotal hspent hin hpos
    have hstep : Draining maxEntries D (done ++ [(src, surplus)]) rest open_
        { plan with redelegations := plan.redelegations ++ moves } := by
      refine ⟨fun v => ?_, by omega, ?_, ?_, fun e he => h.rest_pos e (List.mem_cons_of_mem _ he),
        (hpos h.open_pos).2⟩
      · rw [movedOut_append, movedOut_of_src hsrc v, h.spent v, amountOf_append, amountOf_cons,
          amountOf_nil]
        by_cases hv : src = v <;> simp [hv, hspent]
      · simp only [List.length_append, List.length_cons, List.length_nil]
        omega
      · simp only [List.length_append, List.length_cons, List.length_nil]
        omega
    obtain ⟨hout, hinflow⟩ := ih hstep fun e he => hno e (List.mem_cons_of_mem _ he)
    refine ⟨fun v => by rw [hout v]; simp, fun v => ?_⟩
    rw [hinflow v, movedIn_append, ← hin v]
    omega

end Drain

section Keys

variable {l : List (String × Amount)} {v : String} {e : String × Amount}

/-- A validator given something by a list of entries has an entry in it. -/
theorem mem_keys_of_amountOf_pos (h : 0 < amountOf l v) : v ∈ l.map Prod.fst := by
  induction l with
  | nil => simp at h
  | cons e l ih =>
    rw [amountOf_cons] at h
    by_cases hv : e.1 = v
    · exact List.mem_map.mpr ⟨e, List.mem_cons_self, hv⟩
    · rw [if_neg hv, Nat.zero_add] at h
      exact List.mem_cons_of_mem _ (ih h)

theorem amountOf_le_sum (l : List (String × Amount)) (v : String) :
    amountOf l v ≤ (l.map (·.2.toNat)).sum := by
  induction l with
  | nil => simp
  | cons e l ih =>
    rw [amountOf_cons, List.map_cons, List.sum_cons]
    split <;> omega

/-- Over distinct keys a validator's entry is all a list gives it. -/
theorem amountOf_eq_of_mem (hkeys : (l.map Prod.fst).Nodup) (he : e ∈ l) :
    amountOf l e.1 = e.2.toNat := by
  induction l with
  | nil => cases he
  | cons e' l ih =>
    obtain ⟨hnotin, hkeys⟩ := List.nodup_cons.mp hkeys
    rw [amountOf_cons]
    rcases List.mem_cons.mp he with rfl | he
    · -- no other entry has the key
      have hzero : amountOf l e.1 = 0 := by
        by_contra hpos
        exact hnotin (mem_keys_of_amountOf_pos (Nat.pos_of_ne_zero hpos))
      simp [hzero]
    · have hne : e'.1 ≠ e.1 := fun h => hnotin (h ▸ List.mem_map_of_mem he)
      rw [if_neg hne, ih hkeys he, Nat.zero_add]

/-- Summing a list of entries is summing, over distinct keys that include all of theirs, what
the entries give each key. -/
theorem sum_eq_sum_amountOf {K : List String} (hK : K.Nodup) (hl : ∀ e ∈ l, e.1 ∈ K) :
    (l.map (·.2.toNat)).sum = (K.map (amountOf l)).sum := by
  induction l with
  | nil => simp [show amountOf [] = fun _ => 0 from rfl]
  | cons e l ih =>
    -- the entry's key is in the key list exactly once
    have hone : (K.map fun v => if e.1 = v then e.2.toNat else 0).sum = e.2.toNat := by
      rw [← List.sum_toFinset _ hK, Finset.sum_ite_eq,
        if_pos (List.mem_toFinset.mpr (hl e List.mem_cons_self))]
    rw [List.map_cons, List.sum_cons, ih fun e' he' => hl e' (List.mem_cons_of_mem _ he'),
      show amountOf (e :: l) = fun v => (if e.1 = v then e.2.toNat else 0) + amountOf l v from
        funext fun v => amountOf_cons, List.sum_map_add, hone]

end Keys

section Desired

variable {current : List (String × Amount)} {targets : List Target} {T : Amount}

/-- The validators holding more than their desired amount. -/
def overweight (current : List (String × Amount)) (desired : Table String Amount) : List String :=
  (current.map Prod.fst).filter fun v => (desired.getD v Amount.zero).toNat < amountOf current v

/-- The allow-listed validators holding less than their desired amount. -/
def underweight (current : List (String × Amount)) (targets : List Target)
    (desired : Table String Amount) : List String :=
  (targets.map Target.validator).filter fun v => amountOf current v < (desired.getD v Amount.zero).toNat

/-- Over distinct validators the table of the delegations gives each what the list gives it. -/
theorem getD_ofList (hkeys : (current.map Prod.fst).Nodup) (v : String) :
    ((Table.ofList current).getD v Amount.zero).toNat = amountOf current v :=
  (amountOf_entries (sorted_ofList _) v).symm.trans (amountOf_ofList hkeys v)

/-- Only allow-listed validators have a desired amount. -/
theorem mem_targets_of_desired_pos
    (hweight : 0 < (targets.map fun t => t.weight.atomics.toNat).sum) {v : String}
    (h : 0 < ((desiredAmounts T targets).getD v Amount.zero).toNat) :
    v ∈ targets.map Target.validator := by
  refine (@isSome_get?_desiredAmounts targets T hweight v).mp ?_
  unfold Table.getD at h
  cases hv : (desiredAmounts T targets).get? v with
  | none => rw [hv] at h; simp at h
  | some _ => rfl

/-- The validators the desired amounts list are allow-listed. -/
theorem mem_targets_of_mem_desired (hweight : 0 < (targets.map fun t => t.weight.atomics.toNat).sum)
    {e : String × Amount} (he : e ∈ (desiredAmounts T targets).entries) :
    e.1 ∈ targets.map Target.validator := by
  refine (@isSome_get?_desiredAmounts targets T hweight e.1).mp ?_
  rw [((sorted_ofList _).get?_eq_some_iff (t := desiredAmounts T targets)).mpr he]
  rfl

/-- Over a key list holding the allow list once, the desired amounts of distinct validators add
up to the total they split. -/
theorem sum_desired (hvals : (targets.map Target.validator).Nodup)
    (hweight : 0 < (targets.map fun t => t.weight.atomics.toNat).sum) {K : List String}
    (hK : K.Nodup) (htargets : ∀ v ∈ targets.map Target.validator, v ∈ K) :
    (K.map fun v => ((desiredAmounts T targets).getD v Amount.zero).toNat).sum = T.toNat := by
  have hsum := @sumBy_desiredAmounts T targets hvals hweight
  unfold Table.sumBy at hsum
  rw [sum_eq_sum_amountOf hK fun e he => htargets _ (mem_targets_of_mem_desired hweight he),
    show amountOf (desiredAmounts T targets).entries =
      fun v => ((desiredAmounts T targets).getD v Amount.zero).toNat from
        funext (amountOf_entries (sorted_ofList _))] at hsum
  exact hsum

/-- Summed over distinct keys that include those of the delegations, the surpluses are what
each validator holds above its desired amount. -/
theorem sum_surpluses_eq (hkeys : (current.map Prod.fst).Nodup) (desired : Table String Amount)
    {K : List String} (hK : K.Nodup) (hcurK : ∀ v ∈ current.map Prod.fst, v ∈ K) :
    ((surpluses desired (Table.ofList current)).map (·.2.toNat)).sum =
      (K.map fun v => amountOf current v - (desired.getD v Amount.zero).toNat).sum := by
  have hsrc : ∀ v, amountOf (surpluses desired (Table.ofList current)) v =
      amountOf current v - (desired.getD v Amount.zero).toNat := fun v => by
    rw [amountOf_surpluses (sorted_ofList _), getD_ofList hkeys]
  -- a validator with a surplus holds something, so it has an entry
  rw [sum_eq_sum_amountOf hK fun e he => hcurK _ (mem_keys_of_amountOf_pos (by
    have := Nat.lt_of_lt_of_le (pos_of_mem_surpluses he) (le_amountOf_of_mem he)
    rw [hsrc] at this
    omega)), funext hsrc]

/-- Summed over distinct keys that include the allow list, the deficits are what each
validator lacks of its desired amount. -/
theorem sum_deficits_eq (hkeys : (current.map Prod.fst).Nodup)
    (hweight : 0 < (targets.map fun t => t.weight.atomics.toNat).sum) {K : List String}
    (hK : K.Nodup) (htarK : ∀ v ∈ targets.map Target.validator, v ∈ K) :
    ((deficits (desiredAmounts T targets) (Table.ofList current)).map (·.2.toNat)).sum =
      (K.map fun v => ((desiredAmounts T targets).getD v Amount.zero).toNat -
        amountOf current v).sum := by
  have hdes : (desiredAmounts T targets).Sorted := sorted_ofList _
  have hdef : ∀ v, amountOf (deficits (desiredAmounts T targets) (Table.ofList current)) v =
      ((desiredAmounts T targets).getD v Amount.zero).toNat - amountOf current v := fun v => by
    rw [amountOf_deficits hdes, getD_ofList hkeys]
  -- a validator with a deficit has a desired amount, so it is allow-listed
  rw [sum_eq_sum_amountOf hK fun e he => htarK _ (mem_targets_of_desired_pos (T := T) hweight (by
    have := Nat.lt_of_lt_of_le (pos_of_mem_deficits he) (le_amountOf_of_mem he)
    rw [hdef] at this
    omega)), funext hdef]

/-- What is held above the desired amounts adds up to what is lacking of them, when the
delegations add up to the total the desired amounts split. -/
theorem sum_surpluses_eq_sum_deficits (hkeys : (current.map Prod.fst).Nodup)
    (hvals : (targets.map Target.validator).Nodup)
    (hweight : 0 < (targets.map fun t => t.weight.atomics.toNat).sum)
    (hT : T.toNat = (current.map (·.2.toNat)).sum) :
    ((surpluses (desiredAmounts T targets) (Table.ofList current)).map (·.2.toNat)).sum =
      ((deficits (desiredAmounts T targets) (Table.ofList current)).map (·.2.toNat)).sum := by
  set K := (current.map Prod.fst ++ targets.map Target.validator).dedup
  have hK : K.Nodup := List.nodup_dedup _
  have hcurK : ∀ v ∈ current.map Prod.fst, v ∈ K := fun v hv => List.mem_dedup.mpr (by simp [hv])
  have htarK : ∀ v ∈ targets.map Target.validator, v ∈ K := fun v hv =>
    List.mem_dedup.mpr (List.mem_append_right _ hv)
  rw [sum_surpluses_eq hkeys _ hK hcurK, sum_deficits_eq hkeys hweight hK htarK]
  set d := fun v => ((desiredAmounts T targets).getD v Amount.zero).toNat
  show (K.map fun v => amountOf current v - d v).sum = (K.map fun v => d v - amountOf current v).sum
  have hheld : (K.map (amountOf current)).sum = T.toNat := by
    rw [hT, sum_eq_sum_amountOf hK fun e he => hcurK _ (List.mem_map_of_mem he)]
  have hwant : (K.map d).sum = T.toNat := sum_desired hvals hweight hK htarK
  -- per validator, the surplus and the desired amount make what the deficit and the holding make
  have hmax : (K.map fun v => (amountOf current v - d v) + d v).sum =
      (K.map fun v => (d v - amountOf current v) + amountOf current v).sum :=
    congrArg List.sum (List.map_congr_left fun v _ => by omega)
  rw [List.sum_map_add, List.sum_map_add, hheld, hwant] at hmax
  omega

/-- Over distinct validators, one source per validator holding more than its desired amount. -/
theorem length_surpluses (hkeys : (current.map Prod.fst).Nodup) (desired : Table String Amount) :
    (surpluses desired (Table.ofList current)).length = (overweight current desired).length := by
  rw [surpluses_perm.length_eq, List.length_map, surplusEntries, Table.toList,
    List.length_filterMap_eq_countP, (perm_ofList hkeys).countP_eq, overweight,
    ← List.countP_eq_length_filter, List.countP_map]
  refine List.countP_congr fun e he => ?_
  obtain ⟨v, a⟩ := e
  simp only [Function.comp_apply, amountOf_eq_of_mem hkeys he]
  -- a validator has a source exactly when its surplus is not zero
  split
  · next hz =>
    rw [Amount.isZero_eq_true, Amount.toNat_satSub] at hz
    simp only [Table.getD] at hz ⊢
    simp only [Option.isSome_none, Bool.false_eq_true, false_iff]
    exact fun h => by have := of_decide_eq_true h; omega
  · next hz =>
    rw [Amount.isZero_eq_true, Amount.toNat_satSub] at hz
    simp only [Table.getD] at hz ⊢
    simp only [Option.isSome_some, true_iff]
    exact decide_eq_true (by omega)

/-- The desired amounts list each allow-listed validator once. -/
theorem perm_keys_desired (hvals : (targets.map Target.validator).Nodup)
    (hweight : 0 < (targets.map fun t => t.weight.atomics.toNat).sum) :
    ((desiredAmounts T targets).entries.map Prod.fst).Perm (targets.map Target.validator) := by
  have hpos : 0 < Apportion.shareSum (Amount.natShares (Target.shares targets)) := by
    simpa using hweight
  have hkeys : (T.apportion (Target.shares targets)).map Prod.fst = targets.map Target.validator := by
    rw [Amount.map_fst_apportion hpos]
    simp [Target.shares, Function.comp_def]
  have := (perm_ofList (hkeys ▸ hvals)).map Prod.fst
  rwa [hkeys] at this

/-- Over distinct validators, one deficit per allow-listed validator holding less than its
desired amount. -/
theorem length_deficits (hkeys : (current.map Prod.fst).Nodup)
    (hvals : (targets.map Target.validator).Nodup)
    (hweight : 0 < (targets.map fun t => t.weight.atomics.toNat).sum) :
    (deficits (desiredAmounts T targets) (Table.ofList current)).length =
      (underweight current targets (desiredAmounts T targets)).length := by
  have hdes : (desiredAmounts T targets).Sorted := sorted_ofList _
  rw [deficits, Table.toList, List.length_filterMap_eq_countP, underweight,
    ← List.countP_eq_length_filter, ← (perm_keys_desired hvals hweight).countP_eq, List.countP_map]
  refine List.countP_congr fun e he => ?_
  have hget : (desiredAmounts T targets).getD e.1 Amount.zero = e.2 := by
    simp [Table.getD, hdes.get?_eq_some_iff.mpr he]
  obtain ⟨v, a⟩ := e
  simp only [Function.comp_apply] at hget ⊢
  rw [hget]
  -- a validator has a deficit exactly when it holds less than its desired amount
  split
  · next hlt =>
    rw [Amount.lt_iff_toNat, getD_ofList hkeys] at hlt
    simp only [Option.isSome_some, true_iff]
    exact decide_eq_true hlt
  · next hlt =>
    rw [Amount.lt_iff_toNat, getD_ofList hkeys] at hlt
    simp only [Option.isSome_none, Bool.false_eq_true, false_iff]
    exact fun h => hlt (of_decide_eq_true h)

end Desired

end LiquidStaking.Rebalance

namespace LiquidStaking.Recording

open Tx Rebalance

variable {s : State} {v w : String} {a : Amount}

/-- What a delegation table records for a validator, zero when it has no entry. -/
def recorded (t : Table String Amount) (v : String) : Nat := (t.getD v Amount.zero).toNat

theorem recorded_insert (t : Table String Amount) (n : Amount) :
    recorded (t.insert v n) w = if v = w then n.toNat else recorded t w := by
  simp only [recorded, Table.getD, Table.get?_insert]
  split <;> rfl

theorem recorded_erase (t : Table String Amount) :
    recorded (t.erase v) w = if v = w then 0 else recorded t w := by
  simp only [recorded, Table.getD, Table.get?_erase]
  split <;> rfl

theorem recordAll_cons {m : HostMsg} {ms : List HostMsg} {f : Funding} :
    recordAll (m :: ms) f = (record m f >>= fun _ => recordAll ms f) := by
  simp [recordAll]

/-- Taking an amount a validator holds commits and lowers it by that amount, dropping it at
zero. -/
theorem run_subDelegation (hs : s.delegations.Sorted) (ha : a.toNat ≤ recorded s.delegations v) :
    ∃ t, (subDelegation v a).run s = .ok ((), { s with delegations := t }) ∧ t.Sorted ∧
      ∀ w, recorded t w = if v = w then recorded s.delegations v - a.toNat else recorded s.delegations w := by
  obtain ⟨n, hn⟩ : ∃ n, (s.delegations.getD v Amount.zero).sub? a = some n :=
    ⟨(s.delegations.getD v Amount.zero).satSub a, Amount.sub?_eq_some_iff.mpr ⟨ha, rfl⟩⟩
  have hval := (Amount.sub?_eq_some_iff.mp hn).2
  refine ⟨if n.isZero then s.delegations.erase v else s.delegations.insert v n, ?_, ?_, fun w => ?_⟩
  · simp [subDelegation, checkedSub, hn]
  · split
    · exact hs.erase v
    · exact hs.insert v n
  · split
    · next hz =>
      rw [recorded_erase]
      rw [Amount.isZero_eq_true] at hz
      split <;> simp_all [recorded]
    · rw [recorded_insert]
      split <;> simp_all [recorded]

/-- Adding to a validator's delegation what keeps it an amount commits and raises it by that
amount. -/
theorem run_addDelegation (hs : s.delegations.Sorted)
    (ha : recorded s.delegations v + a.toNat < Amount.bound) :
    ∃ t, (addDelegation v a).run s = .ok ((), { s with delegations := t }) ∧ t.Sorted ∧
      ∀ w, recorded t w = if v = w then recorded s.delegations v + a.toNat else recorded s.delegations w := by
  obtain ⟨n, hn⟩ : ∃ n, (s.delegations.getD v Amount.zero).add? a = some n :=
    ⟨⟨_, ha⟩, Amount.add?_eq_some_iff.mpr rfl⟩
  have hval := Amount.add?_eq_some_iff.mp hn
  refine ⟨s.delegations.insert v n, ?_, hs.insert v n, fun w => ?_⟩
  · simp [addDelegation, checkedAdd, hn]
  · rw [recorded_insert]
    split <;> simp_all [recorded]

/-- Recording a redelegation of what the source holds, into a destination that can take it,
commits and moves the amount. -/
theorem run_record_redelegate {src dst : String} (f : Funding) (hs : s.delegations.Sorted)
    (ha : a.toNat ≤ recorded s.delegations src)
    (hb : recorded s.delegations dst + a.toNat < Amount.bound) :
    ∃ t, (record (.redelegate src dst a) f).run s = .ok ((), { s with delegations := t }) ∧
      t.Sorted ∧ ∀ w, recorded t w + (if src = w then a.toNat else 0) =
        recorded s.delegations w + if dst = w then a.toNat else 0 := by
  obtain ⟨t₁, hrun₁, hs₁, ht₁⟩ := run_subDelegation hs ha
  have hb₁ : recorded t₁ dst + a.toNat < Amount.bound := by
    rw [ht₁ dst]
    split
    · -- the source gave the amount first, so it can take it back
      have : recorded s.delegations src < Amount.bound := (s.delegations.getD src Amount.zero).lt_bound
      omega
    · exact hb
  obtain ⟨t₂, hrun₂, hs₂, ht₂⟩ := run_addDelegation (s := { s with delegations := t₁ }) hs₁ hb₁
  refine ⟨t₂, ?_, hs₂, fun w => ?_⟩
  · simp only [record, run_bind_ok]
    exact ⟨(), _, hrun₁, hrun₂⟩
  · rw [ht₂ w, ht₁ w, ht₁ dst]
    by_cases hsw : src = w <;> by_cases hdw : dst = w <;> simp_all

/-- Recording redelegations that overdraw no validator and take none past the amount range
commits, and each validator ends with what it recorded, plus what moved in, less what moved out. -/
theorem run_recordAll_redelegations (f : Funding) :
    ∀ {rs : List Redelegation} {s : State}, s.delegations.Sorted →
      (∀ v, movedOut rs v ≤ recorded s.delegations v) →
      (∀ v, recorded s.delegations v + movedIn rs v < Amount.bound) →
      ∃ t, (recordAll (rs.map fun r => .redelegate r.src r.dst r.amount) f).run s =
          .ok ((), { s with delegations := t }) ∧ t.Sorted ∧
        ∀ v, recorded t v + movedOut rs v = recorded s.delegations v + movedIn rs v
  | [], s, hs, _, _ => ⟨s.delegations, by simp [recordAll], hs, fun v => by simp⟩
  | r :: rs, s, hs, hout, hin => by
    have hsrc : r.amount.toNat ≤ recorded s.delegations r.src := by
      have := hout r.src
      simp only [movedOut_cons, if_pos] at this
      omega
    have hdst : recorded s.delegations r.dst + r.amount.toNat < Amount.bound := by
      have := hin r.dst
      simp only [movedIn_cons, if_pos] at this
      omega
    obtain ⟨t₁, hrun₁, hs₁, ht₁⟩ := run_record_redelegate f hs hsrc hdst
    -- what is left to move fits what the first move left
    have hout₁ : ∀ v, movedOut rs v ≤ recorded t₁ v := fun v => by
      have h₁ := hout v
      have h₂ := ht₁ v
      rw [movedOut_cons] at h₁
      by_cases hsv : r.src = v <;> by_cases hdv : r.dst = v <;>
        simp only [hsv, hdv, ↓reduceIte] at h₁ h₂ <;> omega
    have hin₁ : ∀ v, recorded t₁ v + movedIn rs v < Amount.bound := fun v => by
      have h₁ := hin v
      have h₂ := ht₁ v
      rw [movedIn_cons] at h₁
      by_cases hsv : r.src = v <;> by_cases hdv : r.dst = v <;>
        simp only [hsv, hdv, ↓reduceIte] at h₁ h₂ <;> omega
    obtain ⟨t, hrun, hst, ht⟩ :=
      run_recordAll_redelegations f (s := { s with delegations := t₁ }) hs₁ hout₁ hin₁
    refine ⟨t, ?_, hst, fun v => ?_⟩
    · rw [List.map_cons, recordAll_cons, run_bind_ok]
      exact ⟨(), _, hrun₁, hrun⟩
    · have h₁ := ht v
      have h₂ := ht₁ v
      rw [movedOut_cons, movedIn_cons]
      by_cases hsv : r.src = v <;> by_cases hdv : r.dst = v <;>
        simp only [hsv, hdv, ↓reduceIte] at h₁ h₂ ⊢ <;> omega

end LiquidStaking.Recording

namespace LiquidStaking.Rebalance

open Table

section Converge

variable {targets : List Target} {T : Amount}

/-- A table that binds each validator its desired amount leaves the planner nothing to move,
whatever the cooldowns and the cap. -/
theorem planRedelegations_settled {t : Table String Amount} (ht : t.Sorted)
    (hvals : (targets.map Target.validator).Nodup)
    (hweight : 0 < (targets.map fun t => t.weight.atomics.toNat).sum)
    (hset : ∀ v, t.getD v Amount.zero = (desiredAmounts T targets).getD v Amount.zero)
    (inCooldown : String → Bool) (maxEntries : Nat) :
    planRedelegations t.toList targets inCooldown maxEntries = .ok ⟨[], []⟩ := by
  have hkeys : (t.toList.map Prod.fst).Nodup := ht.nodup_keys
  have hheld : ∀ v, amountOf t.toList v = ((desiredAmounts T targets).getD v Amount.zero).toNat :=
    fun v => by rw [Table.toList, amountOf_entries ht, hset]
  -- the table holds the total the desired amounts split
  have hsum : (t.toList.map (·.2.toNat)).sum = T.toNat := by
    set K := (t.toList.map Prod.fst ++ targets.map Target.validator).dedup
    have hK : K.Nodup := List.nodup_dedup _
    rw [sum_eq_sum_amountOf hK fun e he => List.mem_dedup.mpr
      (List.mem_append_left _ (List.mem_map_of_mem he)), funext hheld]
    exact sum_desired hvals hweight hK fun v hv => List.mem_dedup.mpr (List.mem_append_right _ hv)
  have htotal : total t.toList = .ok T := by
    rw [total_eq_ok (hsum ▸ T.lt_bound)]
    exact congrArg Except.ok (Amount.ext_toNat hsum)
  -- no validator holds more than its desired amount, so there is no source
  have hnone : surpluses (desiredAmounts T targets) (Table.ofList t.toList) = [] := by
    refine List.eq_nil_iff_forall_not_mem.mpr fun e he => ?_
    have hpos := Nat.lt_of_lt_of_le (pos_of_mem_surpluses he) (le_amountOf_of_mem he)
    rw [amountOf_surpluses (sorted_ofList _), getD_ofList hkeys, hheld] at hpos
    omega
  rw [planRedelegations_eq htotal, hnone]
  rfl

/-- What one pass of the planner achieves over the delegations `current`: recorded against a
table holding them, its moves commit and leave every validator exactly its desired amount of
the total `T`, dropping validators that reach zero, and planning again over the result, under
any cooldowns and cap, moves nothing. -/
def Settles (current : List (String × Amount)) (targets : List Target) (T : Amount) (p : Plan) :
    Prop :=
  ∀ (f : Funding) (s : State), s.delegations.Sorted → s.delegations.toList = current →
    ∃ t, (Recording.recordAll (p.redelegations.map fun r => .redelegate r.src r.dst r.amount) f).run s =
        .ok ((), { s with delegations := t }) ∧
      (∀ v, t.getD v Amount.zero = (desiredAmounts T targets).getD v Amount.zero) ∧
      ∀ inCooldown maxEntries, planRedelegations t.toList targets inCooldown maxEntries = .ok ⟨[], []⟩

/-- Rebalancing converges in one uncapped pass. Over distinct validators whose delegations add
up to the amount `T`, and an allow list of distinct validators with positive total weight, with
no source in cooldown, the planner makes at most one move fewer than there are validators
above and below their desired amounts; given room for that many moves, the plan settles every
validator at its desired amount. -/
theorem rebalance_converges (current : List (String × Amount)) (targets : List Target)
    (inCooldown : String → Bool) (maxEntries : Nat) (T : Amount)
    (hkeys : (current.map Prod.fst).Nodup) (hvals : (targets.map Target.validator).Nodup)
    (hweight : 0 < (targets.map fun t => t.weight.atomics.toNat).sum)
    (hT : T.toNat = (current.map (·.2.toNat)).sum)
    (hcool : ∀ v ∈ overweight current (desiredAmounts T targets), inCooldown v = false) :
    ∃ p, planRedelegations current targets inCooldown maxEntries = .ok p ∧
      p.redelegations.length ≤ (overweight current (desiredAmounts T targets)).length +
        (underweight current targets (desiredAmounts T targets)).length - 1 ∧
      ((overweight current (desiredAmounts T targets)).length +
          (underweight current targets (desiredAmounts T targets)).length - 1 ≤ maxEntries →
        Settles current targets T p) := by
  set desired := desiredAmounts T targets
  set sources := surpluses desired (Table.ofList current)
  set defs := deficits desired (Table.ofList current)
  have hdes : desired.Sorted := sorted_ofList _
  have hS : sources.length = (overweight current desired).length := length_surpluses hkeys desired
  have hD : defs.length = (underweight current targets desired).length :=
    length_deficits hkeys hvals hweight
  have htotal : total current = .ok T := by
    rw [total_eq_ok (hT ▸ T.lt_bound)]
    exact congrArg Except.ok (Amount.ext_toNat hT.symm)
  refine ⟨_, planRedelegations_eq htotal, ?_, fun hroom => ?_⟩
  · have hlen : (walk inCooldown maxEntries sources defs ⟨[], []⟩).redelegations.length ≤
        0 + sources.length + defs.length - 1 := walk_length_le ⟨by simp, by simp⟩
    rw [hS, hD, Nat.zero_add] at hlen
    exact hlen
  -- with room for every move and no source cooling, the walk spends and meets everything
  have hsrc : ∀ v, amountOf sources v =
      amountOf current v - (desired.getD v Amount.zero).toNat := fun v => by
    rw [amountOf_surpluses (sorted_ofList _), getD_ofList hkeys]
  have hdef : ∀ v, amountOf defs v =
      (desired.getD v Amount.zero).toNat - amountOf current v := fun v => by
    rw [amountOf_deficits hdes, getD_ofList hkeys]
  have hno : ∀ e ∈ sources, inCooldown e.1 = false := fun e he => by
    have hpos := Nat.lt_of_lt_of_le (pos_of_mem_surpluses he) (le_amountOf_of_mem he)
    rw [hsrc] at hpos
    refine hcool e.1 (List.mem_filter.mpr ⟨mem_keys_of_amountOf_pos (by omega), ?_⟩)
    exact decide_eq_true (by omega)
  have hdrain : Draining maxEntries defs.length [] sources defs ⟨[], []⟩ :=
    ⟨fun v => by simp, sum_surpluses_eq_sum_deficits hkeys hvals hweight hT, by simp,
      by simp only [List.length_nil]; omega, fun _ he => pos_of_mem_surpluses he,
      fun _ he => pos_of_mem_deficits he⟩
  obtain ⟨hout, hin⟩ := walk_drains hdrain hno
  intro f s hs hcur
  have hheld : ∀ v, Recording.recorded s.delegations v = amountOf current v := fun v => by
    rw [← hcur]
    exact (amountOf_entries hs v).symm
  -- a validator ends between what it held and what it should hold, both amounts
  obtain ⟨t, hrun, hst, ht⟩ := Recording.run_recordAll_redelegations f hs
    (fun v => by rw [hout v, List.nil_append, hsrc, hheld]; omega)
    (fun v => by
      have hcap : amountOf current v ≤ T.toNat := hT ▸ amountOf_le_sum current v
      have := (desired.getD v Amount.zero).lt_bound
      have := T.lt_bound
      rw [hin v, hdef, hheld]
      simp only [movedIn_nil, Nat.zero_add]
      omega)
  have hset : ∀ v, t.getD v Amount.zero = desired.getD v Amount.zero := fun v => by
    have := ht v
    rw [hout v, hin v, List.nil_append, hsrc, hdef, hheld] at this
    simp only [movedIn_nil, Nat.zero_add, Recording.recorded] at this
    exact Amount.ext_toNat (by omega)
  exact ⟨t, hrun, hset, planRedelegations_settled hst hvals hweight hset⟩

/-- Delegations split between an allow-listed validator and one dropped from the list, against
two validators of equal weight: two moves settle them. -/
theorem rebalance_converges_drained :
    ([("a", (⟨600, by decide⟩ : Amount)), ("d", ⟨400, by decide⟩)].map Prod.fst).Nodup ∧
    ([(⟨"a", Decimal.percent 50 (by decide)⟩ : Target), ⟨"b", Decimal.percent 50 (by decide)⟩].map
      Target.validator).Nodup ∧
    0 < ([(⟨"a", Decimal.percent 50 (by decide)⟩ : Target), ⟨"b", Decimal.percent 50 (by decide)⟩].map
      fun t => t.weight.atomics.toNat).sum ∧
    (⟨1000, by decide⟩ : Amount).toNat =
      ([("a", (⟨600, by decide⟩ : Amount)), ("d", ⟨400, by decide⟩)].map (·.2.toNat)).sum ∧
    ∃ p, planRedelegations [("a", ⟨600, by decide⟩), ("d", ⟨400, by decide⟩)]
        [⟨"a", Decimal.percent 50 (by decide)⟩, ⟨"b", Decimal.percent 50 (by decide)⟩]
        (fun _ => false) 7 = .ok p ∧
      p.redelegations.length ≤ 2 ∧
      Settles [("a", ⟨600, by decide⟩), ("d", ⟨400, by decide⟩)]
        [⟨"a", Decimal.percent 50 (by decide)⟩, ⟨"b", Decimal.percent 50 (by decide)⟩]
        ⟨1000, by decide⟩ p := by
  obtain ⟨p, hp, hlen, hsettle⟩ := rebalance_converges
    [("a", ⟨600, by decide⟩), ("d", ⟨400, by decide⟩)]
    [⟨"a", Decimal.percent 50 (by decide)⟩, ⟨"b", Decimal.percent 50 (by decide)⟩]
    (fun _ => false) 7 ⟨1000, by decide⟩ (by decide) (by decide) (by decide) rfl (fun _ _ => rfl)
  have hcounts : (overweight [("a", ⟨600, by decide⟩), ("d", ⟨400, by decide⟩)]
      (desiredAmounts ⟨1000, by decide⟩
        [⟨"a", Decimal.percent 50 (by decide)⟩, ⟨"b", Decimal.percent 50 (by decide)⟩])).length +
      (underweight [("a", ⟨600, by decide⟩), ("d", ⟨400, by decide⟩)]
        [⟨"a", Decimal.percent 50 (by decide)⟩, ⟨"b", Decimal.percent 50 (by decide)⟩]
        (desiredAmounts ⟨1000, by decide⟩
          [⟨"a", Decimal.percent 50 (by decide)⟩, ⟨"b", Decimal.percent 50 (by decide)⟩])).length
        - 1 = 2 := by decide
  exact ⟨by decide, by decide, by decide, rfl, p, hp, hcounts ▸ hlen, hsettle (by omega)⟩

end Converge

end LiquidStaking.Rebalance
