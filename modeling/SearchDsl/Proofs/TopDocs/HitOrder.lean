import SearchDsl.Proofs.TopDocs.SortValue
import SearchDsl.TopDocs.Merge

/-!
# `SearchDsl.Proofs.TopDocs.HitOrder`: when the order of hits is transitive

Each criterion compares three hits coherently, and so do all of them together, unless a criterion
reads the three zeros at its position (`ZerosMeet`). Scores, positions, missing values, reversed
criteria and the ties between them never break transitivity (`coherent_hitOrder`).

Where a criterion reads sort values and the three zeros may occur, transitivity does fail: hits that
have one and the same zero at every position are ordered by the first such criterion alone
(`exists_orderHits_uniform`).
-/

set_option autoImplicit false

namespace SearchDsl

open SortValue

namespace RankingKey

/-! ### Swapping two hits -/

/-- Swapping two sort values reverses how they compare. -/
theorem orderValues_swap (reverse missingLast : Bool) (a b : SortValue) :
    orderValues reverse missingLast b a = (orderValues reverse missingLast a b).swap := by
  unfold orderValues
  rw [order_swap a b]
  cases a.isMissing <;> cases b.isMissing <;> cases missingLast <;> cases reverse <;> rfl

/-- Swapping two hits reverses how a criterion orders them. -/
theorem order_swap (key : RankingKey) (a b : Hit) (v w : SortValue) :
    key.order b a w v = (key.order a b v w).swap := by
  cases key with
  | score reverse =>
      have hscore : a.score.totalOrder b.score = (b.score.totalOrder a.score).swap :=
        Std.OrientedOrd.eq_swap (α := Int)
      cases reverse with
      | false => exact hscore
      | true => exact congrArg Ordering.swap hscore
  | field reverse missingLast => exact orderValues_swap reverse missingLast v w
  | doc => exact Std.OrientedOrd.eq_swap (α := Nat)

/-- Swapping two hits reverses how several criteria order them. -/
theorem orderHits_swap (a b : Hit) (keys : List RankingKey) (as bs : List SortValue) :
    orderHits b a keys bs as = (orderHits a b keys as bs).swap := by
  induction keys generalizing as bs with
  | nil => rfl
  | cons key keys ih =>
      unfold orderHits
      rw [Ordering.swap_then, ← order_swap, ← ih]

/-! ### Three hits -/

/-- What is read at a position stands there, unless it is missing. -/
theorem getElem?_of_getD_eq {values : List SortValue} {i : Nat} {value : SortValue}
    (h : values.getD i .missing = value) (hpresent : value ≠ .missing) :
    values[i]? = some value := by
  rw [List.getD_eq_getElem?_getD] at h
  cases hvalue : values[i]? with
  | none =>
      rw [hvalue] at h
      exact absurd h.symm hpresent
  | some found =>
      rw [hvalue] at h
      exact congrArg some h

/-- A criterion that reads sort values finds the three zeros at its position, one in each list. -/
def ZerosMeet (keys : List RankingKey) (as bs cs : List SortValue) : Prop :=
  ∃ i key, keys[i]? = some key ∧ key.readsValues ∧
    [as.getD i .missing, bs.getD i .missing, cs.getD i .missing].Perm zeros

/-- Three sort values compare coherently unless they are the three zeros. -/
theorem coherent_orderValues (reverse missingLast : Bool) {a b c : SortValue}
    (h : ¬[a, b, c].Perm zeros) :
    Coherent (orderValues reverse missingLast a b) (orderValues reverse missingLast b c)
      (orderValues reverse missingLast a c) := by
  have hvalues : Coherent (if reverse then (a.order b).swap else a.order b)
      (if reverse then (b.order c).swap else b.order c)
      (if reverse then (a.order c).swap else a.order c) := by
    cases reverse with
    | false => exact coherent_order h
    | true => exact (coherent_order h).swap
  have hswap : (if missingLast then Ordering.lt else .gt)
      = (if missingLast then Ordering.gt else .lt).swap := by cases missingLast <;> rfl
  have hplace : (if missingLast then Ordering.gt else .lt) ≠ .eq := by cases missingLast <;> decide
  unfold orderValues
  simp only [hswap]
  -- A missing value has a fixed place, so only three present values are compared.
  generalize (if missingLast then Ordering.gt else .lt) = place at hplace ⊢
  have hplace' : place.swap ≠ .eq := fun heq => hplace (Ordering.swap_eq_eq.mp heq)
  cases a.isMissing with
  | false =>
      cases b.isMissing with
      | false =>
          cases c.isMissing with
          | false => exact hvalues
          | true => exact .of_last_apart hplace'
      | true =>
          cases c.isMissing with
          | false => exact .of_middle_apart hplace' Ordering.swap_swap.symm
          | true => exact .of_first_apart hplace'
  | true =>
      cases b.isMissing with
      | false =>
          cases c.isMissing with
          | false => exact .of_first_apart hplace
          | true => exact .of_middle_apart hplace rfl
      | true =>
          cases c.isMissing with
          | false => exact .of_last_apart hplace
          | true => exact ⟨fun _ => rfl, fun _ => rfl, fun _ => rfl⟩

/-- A criterion orders three hits coherently unless it reads the three zeros. -/
theorem coherent_order (key : RankingKey) (a b c : Hit) {u v w : SortValue}
    (h : key.readsValues → ¬[u, v, w].Perm zeros) :
    Coherent (key.order a b u v) (key.order b c v w) (key.order a c u w) := by
  cases key with
  | score reverse =>
      have hscore : Coherent (b.score.totalOrder a.score) (c.score.totalOrder b.score)
          (c.score.totalOrder a.score) :=
        .of_transCmp (fun a b : Hit => compareOn (fun hit : Hit => hit.score.rank) b a) a b c
      cases reverse with
      | false => exact hscore
      | true => exact hscore.swap
  | field reverse missingLast => exact coherent_orderValues reverse missingLast (h rfl)
  | doc => exact .of_transCmp (compareOn Hit.doc) a b c

/-- Several criteria order three hits coherently unless one of them reads the three zeros. -/
theorem coherent_orderHits (a b c : Hit) (keys : List RankingKey) {as bs cs : List SortValue}
    (h : ¬ZerosMeet keys as bs cs) :
    Coherent (orderHits a b keys as bs) (orderHits b c keys bs cs) (orderHits a c keys as cs) := by
  induction keys generalizing as bs cs with
  | nil => exact ⟨fun _ => rfl, fun _ => rfl, fun _ => rfl⟩
  | cons key keys ih =>
      apply Coherent.lex
      · apply coherent_order
        intro hreads hperm
        refine h ⟨0, key, rfl, hreads, ?_⟩
        simpa only [List.headD_eq_getD] using hperm
      · apply ih
        rintro ⟨i, later, hkey, hreads, hperm⟩
        refine h ⟨i + 1, later, hkey, hreads, ?_⟩
        simpa using hperm

/-! ### Hits with one value -/

/-- A criterion that reads no sort values does not tell hits of one score and position apart. -/
theorem order_of_not_readsValues {key : RankingKey} (hreads : key.readsValues = false) {a b : Hit}
    (hscore : a.score = b.score) (hdoc : a.doc = b.doc) (v w : SortValue) :
    key.order a b v w = .eq := by
  cases key with
  | score reverse =>
      have hself : a.score.totalOrder a.score = .eq := Int.compare_eq_eq.mpr rfl
      cases reverse <;> simp [order, ← hscore, hself]
  | field reverse missingLast => simp [readsValues] at hreads
  | doc => exact Nat.compare_eq_eq.mpr hdoc

/-- A criterion that reads sort values orders present ones as they are, or reversed. -/
theorem order_of_readsValues {key : RankingKey} (hreads : key.readsValues) :
    ∃ reverse : Bool, ∀ (a b : Hit) (v w : SortValue), v.isMissing = false → w.isMissing = false →
      key.order a b v w = if reverse then (v.order w).swap else v.order w := by
  cases key with
  | field reverse missingLast =>
      exact ⟨reverse, fun a b v w hv hw => by simp [order, orderValues, hv, hw]⟩
  | _ => simp [readsValues] at hreads

/-- Equal values at all positions tell two hits apart by no criterion. -/
theorem orderHits_replicate_of_eq {a b : Hit} (hscore : a.score = b.score) (hdoc : a.doc = b.doc)
    {v w : SortValue} (hv : v.isMissing = false) (hw : w.isMissing = false)
    (heq : v.order w = .eq) (keys : List RankingKey) :
    orderHits a b keys (List.replicate keys.length v) (List.replicate keys.length w) = .eq := by
  induction keys with
  | nil => rfl
  | cons key keys ih =>
      have hkey : key.order a b v w = .eq := by
        cases hreads : key.readsValues with
        | false => exact order_of_not_readsValues hreads hscore hdoc v w
        | true =>
            obtain ⟨reverse, horder⟩ := order_of_readsValues hreads
            rw [horder a b v w hv hw, heq]
            cases reverse <;> rfl
      show (key.order a b v w).then _ = .eq
      rw [hkey]
      exact ih

/-- The first criterion that reads sort values decides between hits that differ only in them. -/
theorem exists_orderHits_uniform {keys : List RankingKey}
    (hreads : ∃ key ∈ keys, key.readsValues) :
    ∃ reverse : Bool, ∀ a b : Hit, a.score = b.score → a.doc = b.doc → ∀ v w : SortValue,
      v.isMissing = false → w.isMissing = false →
        orderHits a b keys (List.replicate keys.length v) (List.replicate keys.length w)
          = if reverse then (v.order w).swap else v.order w := by
  induction keys with
  | nil => simp at hreads
  | cons key keys ih =>
      cases hfirst : key.readsValues with
      | true =>
          obtain ⟨reverse, horder⟩ := order_of_readsValues hfirst
          refine ⟨reverse, fun a b hscore hdoc v w hv hw => ?_⟩
          show (key.order a b v w).then _ = _
          rw [horder a b v w hv hw]
          cases heq : v.order w with
          | eq =>
              -- What is equal for this criterion is so for all later ones, which read the same.
              have hrest := orderHits_replicate_of_eq hscore hdoc hv hw heq keys
              cases reverse <;> exact hrest
          | lt => cases reverse <;> rfl
          | gt => cases reverse <;> rfl
      | false =>
          obtain ⟨reverse, hlater⟩ := ih (by simpa [hfirst] using hreads)
          refine ⟨reverse, fun a b hscore hdoc v w hv hw => ?_⟩
          show (key.order a b v w).then _ = _
          rw [order_of_not_readsValues hfirst hscore hdoc v w]
          exact hlater a b hscore hdoc v w hv hw

end RankingKey

namespace Hit

open RankingKey

/-- Swapping two hits reverses their order. -/
theorem order_swap (keys : List RankingKey) (a b : Hit) :
    b.order keys a = (a.order keys b).swap := by
  unfold order
  rw [Ordering.swap_then, Ordering.swap_then, ← orderHits_swap,
    ← Std.OrientedOrd.eq_swap (α := Nat), ← Std.OrientedOrd.eq_swap (α := Nat)]

/-- The ranking order of three hits is coherent unless a criterion reads the three zeros. -/
theorem coherent_order {keys : List RankingKey} {a b c : Hit}
    (h : ¬ZerosMeet keys a.values b.values c.values) :
    Coherent (a.order keys b) (b.order keys c) (a.order keys c) :=
  (coherent_orderHits a b c keys h).lex
    ((Coherent.of_transCmp (compareOn shard) a b c).lex (.of_transCmp (compareOn doc) a b c))

/-- A hit with one value at all positions. -/
def uniform (count : Nat) (value : SortValue) (shard : Nat) : Hit :=
  { doc := 0, score := .zero .binary32 false, shard, values := List.replicate count value }

/-- Where a criterion reads the three zeros, two steps in order lead out of order. -/
theorem exists_not_isLE_of_zeros {keys : List RankingKey} (hreads : ∃ key ∈ keys, key.readsValues) :
    ∃ a b c : Hit, (∀ v ∈ a.values ++ b.values ++ c.values, v ∈ zeros) ∧
      (a.order keys b).isLE ∧ (b.order keys c).isLE ∧ ¬(a.order keys c).isLE := by
  obtain ⟨reverse, hdecides⟩ := exists_orderHits_uniform hreads
  -- A reversed criterion goes through the chain backwards. The shards are numbered along the chain,
  -- so that the steps between equal values are in order.
  let first := if reverse then negativeZero else positiveZero
  let last := if reverse then positiveZero else negativeZero
  have horder : ∀ v w : SortValue, v.isMissing = false → w.isMissing = false → ∀ i j : Nat,
      (uniform keys.length v i).order keys (uniform keys.length w j)
        = (if reverse then (v.order w).swap else v.order w).then ((compare i j).then .eq) := by
    intro v w hv hw i j
    have hvalues := hdecides (uniform keys.length v i) (uniform keys.length w j) rfl rfl v w hv hw
    unfold order
    rw [← hvalues]
    rfl
  refine ⟨uniform keys.length first 0, uniform keys.length (long 0) 1,
    uniform keys.length last 2, ?_, ?_, ?_, ?_⟩
  · intro v hv
    simp only [uniform, List.mem_append, List.mem_replicate] at hv
    rcases hv with (⟨-, rfl⟩ | ⟨-, rfl⟩) | ⟨-, rfl⟩ <;> cases reverse <;> decide
  all_goals
    rw [horder _ _ (by cases reverse <;> rfl) (by cases reverse <;> rfl)]
    cases reverse <;> decide +kernel

/-- The order of hits is a total preorder but for one cycle. It is reversed by swapping two hits. It
is transitive for hits that do not have the three zeros at a criterion that reads sort values. On
all hits with values from a set, it is transitive exactly if no criterion reads sort values or one
of the three zeros is not in the set. Of sort values by themselves, only the chain from the
positive zero over the integer zero to the negative zero leads out of order. -/
theorem order_preorder_but_zeros (keys : List RankingKey) :
    (∀ a b : Hit, b.order keys a = (a.order keys b).swap) ∧
    (∀ a b c : Hit, ¬ZerosMeet keys a.values b.values c.values →
      (a.order keys b).isLE → (b.order keys c).isLE → (a.order keys c).isLE) ∧
    (∀ P : SortValue → Prop,
      (∀ a b c : Hit, (∀ v ∈ a.values ++ b.values ++ c.values, P v) →
        (a.order keys b).isLE → (b.order keys c).isLE → (a.order keys c).isLE) ↔
      ((∀ key ∈ keys, key.readsValues = false) ∨ ∃ z ∈ zeros, ¬P z)) ∧
    (∀ u v w : SortValue, (u.order v).isLE → (v.order w).isLE →
      ((u.order w).isLE ↔ ¬(u = positiveZero ∧ v = long 0 ∧ w = negativeZero))) := by
  refine ⟨order_swap keys, fun a b c h => (coherent_order h).isLE, fun P => ⟨?_, ?_⟩,
    fun u v w => order_isLE_trans_iff⟩
  · intro htrans
    by_contra hboth
    simp only [not_or, not_forall, not_exists, not_and, not_not] at hboth
    obtain ⟨⟨key, hkey, hreads⟩, hzeros⟩ := hboth
    obtain ⟨a, b, c, hvalues, hab, hbc, hac⟩ :=
      exists_not_isLE_of_zeros ⟨key, hkey, by simpa using hreads⟩
    exact hac (htrans a b c (fun v hv => hzeros v (hvalues v hv)) hab hbc)
  · intro hsome a b c hP
    apply (coherent_order _).isLE
    rintro ⟨i, key, hkey, hreads, hperm⟩
    rcases hsome with hnone | ⟨z, hz, hnot⟩
    · rw [hnone key (List.mem_of_getElem? hkey)] at hreads
      exact Bool.noConfusion hreads
    · -- A zero at a position of one of the hits is a value of that hit.
      have hpresent : z ≠ .missing := by
        rintro rfl
        simp [zeros, positiveZero, negativeZero] at hz
      have hmem : ∀ {values : List SortValue}, z = values.getD i .missing → z ∈ values := by
        intro values hget
        exact List.mem_of_getElem? (getElem?_of_getD_eq hget.symm hpresent)
      have hposition := hperm.mem_iff.mpr hz
      simp only [List.mem_cons, List.not_mem_nil, or_false] at hposition
      apply hnot (hP z _)
      simp only [List.mem_append]
      rcases hposition with ha | hb | hc
      · exact .inl (.inl (hmem ha))
      · exact .inl (.inr (hmem hb))
      · exact .inr (hmem hc)

/-- Two of the three zeros, below another number in descending order. -/
theorem order_preorder_two_zeros :
    let keys : List RankingKey := [.field true true, .score false]
    let a := uniform 1 (long 2) 0
    let b := uniform 1 positiveZero 1
    let c := uniform 1 (long 0) 2
    ¬ZerosMeet keys a.values b.values c.values ∧ (a.order keys b).isLE ∧ (b.order keys c).isLE ∧
      (a.order keys c).isLE := by
  intro keys a b c
  have hapart : ¬ZerosMeet keys a.values b.values c.values := by
    rintro ⟨i, key, hkey, hreads, hperm⟩
    have hmem := hperm.mem_iff.mpr (show negativeZero ∈ zeros by decide)
    cases i with
    | zero => exact absurd hmem (by decide)
    | succ i => exact absurd hmem (by simp [a, b, c, uniform, negativeZero])
  have hab : (a.order keys b).isLE := by decide +kernel
  have hbc : (b.order keys c).isLE := by decide +kernel
  exact ⟨hapart, hab, hbc, (order_preorder_but_zeros keys).2.1 a b c hapart hab hbc⟩

/-- The order of hits is not transitive: a double zero, an integer zero and a negative zero. -/
theorem order_not_transitive : ¬∀ (keys : List RankingKey) (a b c : Hit),
    (a.order keys b).isLE → (b.order keys c).isLE → (a.order keys c).isLE := by
  intro htrans
  have hcycle := htrans [.field false true] (uniform 1 positiveZero 0) (uniform 1 (long 0) 1)
    (uniform 1 negativeZero 2) (by decide +kernel) (by decide +kernel)
  exact absurd hcycle (by decide +kernel)

end Hit

end SearchDsl
