import Mathlib.Order.Lattice

namespace TokenBudget

/-!
# Sorting by a key

A stable sort by a key keeps the entries of each key in their order.  Together
with the order of the keys this says all about the result: two sorted lists with
the same entries of each key are equal.
-/

section

variable
    {Entry Key : Type}
    [LinearOrder Key]
    (key : Entry → Key)

/-- The order of entries by their keys. -/
def keyLe (first second : Entry) : Bool :=
  decide (key first ≤ key second)

/-- Entries in the order of their keys. -/
def sortedByKey (entries : List Entry) : List Entry :=
  entries.mergeSort (keyLe key)

/-- The entries of one key, in their order. -/
def ofKey
    (sought : Key)
    (entries : List Entry) :
    List Entry :=
  entries.filter fun entry => key entry = sought

theorem keyLe_trans
    (first second third : Entry)
    (before : keyLe key first second = true)
    (after : keyLe key second third = true) :
    keyLe key first third = true := by
  simp only [keyLe, decide_eq_true_eq] at *
  exact le_trans before after

theorem keyLe_total (first second : Entry) :
    (keyLe key first second || keyLe key second first) = true := by
  simp only [keyLe, Bool.or_eq_true, decide_eq_true_eq]
  exact le_total (key first) (key second)

theorem pairwise_sortedByKey (entries : List Entry) :
    (sortedByKey key entries).Pairwise fun first second => key first ≤ key second :=
  (List.pairwise_mergeSort (keyLe_trans key) (keyLe_total key) entries).imp
    fun before => of_decide_eq_true before

theorem sortedByKey_perm (entries : List Entry) :
    (sortedByKey key entries).Perm entries :=
  List.mergeSort_perm entries _

/-- A stable sort keeps the entries of each key in their order. -/
theorem ofKey_sortedByKey
    (sought : Key)
    (entries : List Entry) :
    ofKey key sought (sortedByKey key entries) = ofKey key sought entries := by
  have kept : (ofKey key sought entries).Pairwise
      fun first second => keyLe key first second = true := by
    rw [ofKey, List.pairwise_filter]
    refine List.pairwise_of_forall fun first second firstKey secondKey => ?_
    simp only [keyLe, decide_eq_true_eq] at *
    rw [firstKey, secondKey]
  have sublist : (ofKey key sought entries).Sublist (sortedByKey key entries) :=
    List.sublist_mergeSort (keyLe_trans key) (keyLe_total key) kept List.filter_sublist
  have inside := sublist.filter fun entry => decide (key entry = sought)
  rw [ofKey, List.filter_filter] at inside
  simp only [Bool.and_self] at inside
  exact (inside.eq_of_length ((sortedByKey_perm key entries).filter _).length_eq.symm).symm

/-- Sorted lists with the same entries of each key are equal. -/
theorem eq_of_sorted_of_ofKey_eq
    {first second : List Entry}
    (firstSorted : first.Pairwise fun earlier later => key earlier ≤ key later)
    (secondSorted : second.Pairwise fun earlier later => key earlier ≤ key later)
    (same : ∀ sought, ofKey key sought first = ofKey key sought second) :
    first = second := by
  induction first generalizing second with
  | nil =>
      cases second with
      | nil =>
          rfl
      | cons entry others =>
          have absent := same (key entry)
          simp [ofKey] at absent
  | cons entry others inductionHypothesis =>
      cases second with
      | nil =>
          have absent := same (key entry)
          simp [ofKey] at absent
      | cons other rest =>
          rw [List.pairwise_cons] at firstSorted secondSorted
          have mem_of_same : ∀ {sought}, sought ∈ entry :: others ↔ sought ∈ other :: rest := by
            intro sought
            have atKey := congrArg (sought ∈ ·) (same (key sought))
            simpa [ofKey] using atKey
          have other_le : key entry ≤ key other := by
            rcases List.mem_cons.mp (mem_of_same.mpr List.mem_cons_self) with rfl | member
            · exact le_refl _
            · exact firstSorted.1 other member
          have entry_le : key other ≤ key entry := by
            rcases List.mem_cons.mp (mem_of_same.mp List.mem_cons_self) with rfl | member
            · exact le_refl _
            · exact secondSorted.1 entry member
          have sameKey : key other = key entry := le_antisymm entry_le other_le
          have heads := same (key entry)
          simp only [ofKey, List.filter_cons, sameKey, decide_true, if_true,
            List.cons.injEq] at heads
          obtain ⟨rfl, _⟩ := heads
          have tails : ∀ sought, ofKey key sought others = ofKey key sought rest := by
            intro sought
            have atKey := same sought
            simp only [ofKey, List.filter_cons] at atKey ⊢
            split at atKey
            · exact (List.cons.inj atKey).2
            · exact atKey
          rw [inductionHypothesis firstSorted.2 secondSorted.2 tails]

/-- A stable sort depends on nothing but the entries of each key. -/
theorem sortedByKey_congr
    {first second : List Entry}
    (same : ∀ sought, ofKey key sought first = ofKey key sought second) :
    sortedByKey key first = sortedByKey key second := by
  apply eq_of_sorted_of_ofKey_eq key (pairwise_sortedByKey key first)
    (pairwise_sortedByKey key second)
  intro sought
  rw [ofKey_sortedByKey, ofKey_sortedByKey, same]

/-- A list has the entries of another in the order of their keys, those of one key as they came. -/
structure SortedStably (entries sorted : List Entry) : Prop where
  perm : sorted.Perm entries
  ordered : sorted.Pairwise fun earlier later => key earlier ≤ key later
  stable : ∀ sought, ofKey key sought sorted = ofKey key sought entries

/-- Entries are sorted stably in one way only. -/
theorem sortedStably_iff
    {entries sorted : List Entry} :
    SortedStably key entries sorted ↔ sorted = sortedByKey key entries := by
  constructor
  · intro isSorted
    refine eq_of_sorted_of_ofKey_eq key isSorted.ordered (pairwise_sortedByKey key entries) ?_
    intro sought
    rw [isSorted.stable, ofKey_sortedByKey]
  · rintro rfl
    exact ⟨sortedByKey_perm key entries, pairwise_sortedByKey key entries,
      fun sought => ofKey_sortedByKey key sought entries⟩

end

end TokenBudget
