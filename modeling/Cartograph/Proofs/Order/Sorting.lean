import Mathlib

/-! Stable sorting. An entry is numbered by its place in the list it comes from; what sorts by a
key then sorts by key and number, so the result does not depend on where entries with different
keys stood. -/

namespace Cartograph

theorem zipIdx_rising {α : Type} (entries : List α) (start : Nat) :
    (entries.zipIdx start).Pairwise (·.2 < ·.2) := by
  have numbers : ((entries.zipIdx start).map Prod.snd).Pairwise (· < ·) := by
    rw [List.zipIdx_map_snd]
    exact List.pairwise_lt_range'
  exact List.pairwise_map.mp numbers

namespace Sorting

/-- The numbered entries of a list, all of them and by ascending keys. -/
structure InOrder {α κ : Type} [LT κ] (key : α × Nat → κ) (entries : List α)
    (numbered : List (α × Nat)) : Prop where
  complete : numbered.Perm entries.zipIdx
  ascending : ∀ i j (left : i < numbered.length) (right : j < numbered.length),
    i < j ↔ key numbered[i] < key numbered[j]

/-- The entries of two lists in one, in which each of the two keeps its order. -/
inductive Interleaved {α : Type} : List α → List α → List α → Prop
  | empty : Interleaved [] [] []
  | first (entry : α) {entries others all : List α} (rest : Interleaved entries others all) :
    Interleaved (entry :: entries) others (entry :: all)
  | second (entry : α) {entries others all : List α} (rest : Interleaved entries others all) :
    Interleaved entries (entry :: others) (entry :: all)

theorem Interleaved.filter_eq {α : Type} {entries others all : List α}
    (interleaved : Interleaved entries others all) (mark : α → Bool)
    (marked : ∀ entry ∈ entries, mark entry = true)
    (unmarked : ∀ entry ∈ others, mark entry = false) :
    all.filter mark = entries ∧ all.filter (!mark ·) = others := by
  induction interleaved with
  | empty => exact ⟨rfl, rfl⟩
  | first entry _ later =>
    obtain ⟨found, rest⟩ := List.forall_mem_cons.mp marked
    obtain ⟨kept, dropped⟩ := later rest unmarked
    rw [List.filter_cons_of_pos found, List.filter_cons_of_neg (by simp [found]), kept, dropped]
    exact ⟨rfl, rfl⟩
  | second entry _ later =>
    obtain ⟨absent, rest⟩ := List.forall_mem_cons.mp unmarked
    obtain ⟨kept, dropped⟩ := later marked rest
    rw [List.filter_cons_of_neg (by simp [absent]), List.filter_cons_of_pos (by simp [absent]), kept,
      dropped]
    exact ⟨rfl, rfl⟩

theorem Interleaved.mem_iff {α : Type} {entries others all : List α}
    (interleaved : Interleaved entries others all) (entry : α) :
    entry ∈ all ↔ entry ∈ entries ∨ entry ∈ others := by
  induction interleaved with
  | empty => simp
  | first _ _ later => rw [List.mem_cons, later, List.mem_cons, or_assoc]
  | second _ _ later => rw [List.mem_cons, later, List.mem_cons, or_left_comm]

theorem inOrder_of_pairwise {α κ : Type} [LinearOrder κ] (key : α × Nat → κ) (entries : List α)
    (numbered : List (α × Nat)) (complete : numbered.Perm entries.zipIdx)
    (sorted : numbered.Pairwise fun a b => key a < key b) : InOrder key entries numbered := by
  refine ⟨complete, ?_⟩
  intro i j left right
  rw [List.pairwise_iff_getElem] at sorted
  rcases lt_trichotomy i j with less | rfl | more
  · exact iff_of_true less (sorted i j left right less)
  · exact iff_of_false (lt_irrefl i) (lt_irrefl _)
  · exact iff_of_false more.asymm (sorted j i right left more).asymm

theorem InOrder.fst_mem {α κ : Type} [LT κ] {key : α × Nat → κ} {entries : List α}
    {numbered : List (α × Nat)} (sorted : InOrder key entries numbered) :
    ∀ entry ∈ numbered.map Prod.fst, entry ∈ entries := by
  intro entry member
  rw [(sorted.complete.map Prod.fst).mem_iff, List.zipIdx_map_fst] at member
  exact member

theorem pairwise_filter_append {β κ : Type} [LinearOrder κ] (key : β → κ) (mark : β → Bool)
    (entries : List β) (rising : entries.Pairwise fun a b => key a < key b) :
    (entries.filter mark ++ entries.filter (!mark ·)).Pairwise fun a b =>
      toLex (!mark a, key a) < toLex (!mark b, key b) := by
  simp only [Prod.Lex.toLex_lt_toLex]
  rw [List.pairwise_append]
  refine ⟨?_, ?_, ?_⟩
  · apply (rising.filter mark).imp_of_mem
    intro a b left right less
    rw [(List.mem_filter.mp left).2, (List.mem_filter.mp right).2]
    exact .inr ⟨rfl, less⟩
  · apply (rising.filter (!mark ·)).imp_of_mem
    intro a b left right less
    rw [(List.mem_filter.mp left).2, (List.mem_filter.mp right).2]
    exact .inr ⟨rfl, less⟩
  · intro a left b right
    rw [(List.mem_filter.mp left).2, (List.mem_filter.mp right).2]
    exact .inl (by decide)

section Numbered

variable {α : Type} (entries : List α) (before : α × Nat → α × Nat → Bool)

theorem mergeSort_zipIdx_distinct :
    (entries.zipIdx.mergeSort before).Pairwise fun a b => a.2 ≠ b.2 := by
  rw [(List.mergeSort_perm _ _).pairwise_iff Ne.symm]
  exact (zipIdx_rising entries 0).imp Nat.ne_of_lt

theorem getElem_of_mem_mergeSort (entry : α) (number : Nat)
    (member : (entry, number) ∈ entries.zipIdx.mergeSort before) :
    ∃ inside : number < entries.length, entries[number] = entry := by
  rw [List.mem_mergeSort, List.mem_zipIdx_iff_getElem?] at member
  exact List.getElem?_eq_some_iff.mp member

end Numbered

theorem pairwise_mergeSort_compare {α : Type} (order : α → α → Ordering) [Std.TransCmp order]
    (listed : α → α → Prop) (entries : List α) (before : entries.Pairwise listed) :
    (entries.mergeSort fun a b => (order a b).isLE).Pairwise fun a b =>
      order a b = .lt ∨ order a b = .eq ∧ listed a b := by
  have swap (a b : α) : order b a = (order a b).swap := Std.OrientedCmp.eq_swap
  have sorted : (entries.zipIdx.mergeSort (List.zipIdxLE fun a b => (order a b).isLE)).Pairwise
      fun a b => List.zipIdxLE (fun a b => (order a b).isLE) a b = true := by
    apply List.pairwise_mergeSort
    · exact List.zipIdxLE_trans fun a b c => Std.TransCmp.isLE_trans
    · apply List.zipIdxLE_total
      intro a b
      rw [swap a b]
      cases order a b <;> rfl
  rw [← List.mergeSort_zipIdx, List.pairwise_map]
  apply (sorted.and (mergeSort_zipIdx_distinct entries _)).imp_of_mem
  intro ⟨a, i⟩ ⟨b, j⟩ left right ⟨le, apart⟩
  obtain ⟨i_inside, rfl⟩ := getElem_of_mem_mergeSort entries _ a i left
  obtain ⟨j_inside, rfl⟩ := getElem_of_mem_mergeSort entries _ b j right
  unfold List.zipIdxLE at le
  cases compared : order entries[i] entries[j] with
  | lt => exact .inl rfl
  | eq =>
    refine .inr ⟨rfl, List.pairwise_iff_getElem.mp before i j i_inside j_inside ?_⟩
    have back := swap entries[i] entries[j]
    rw [compared] at back
    simp only [compared, back, Ordering.isLE, Ordering.swap, if_true, decide_eq_true_eq] at le
    exact lt_of_le_of_ne le apart
  | gt => simp [compared] at le

section Stable

variable {α κ : Type} [LinearOrder κ] (key : α → κ) (before : α → α → Bool)
  (before_iff : ∀ a b, before a b = true ↔ key a ≤ key b)

/-- Where two numbered entries stand: by their keys, tied ones by their numbers. -/
def place (entry : α × Nat) : κ ×ₗ Nat := toLex (key entry.1, entry.2)

omit [LinearOrder κ] in
theorem zipIdx_tied (entries : List α) :
    entries.zipIdx.Pairwise fun a b => key a.1 = key b.1 → a.2 < b.2 := by
  apply (zipIdx_rising entries 0).imp
  intro a b less _
  exact less

include before_iff

theorem zipIdxLE_iff (a b : α × Nat) :
    List.zipIdxLE before a b = true ↔ place key a ≤ place key b := by
  rw [place, place, Prod.Lex.toLex_le_toLex]
  unfold List.zipIdxLE
  simp only [before_iff]
  split
  · next below =>
    split
    · next above => simp [le_antisymm below above]
    · next above => simp [lt_of_not_ge above]
  · next above => simpa using ⟨(lt_of_not_ge above).le, fun same => absurd same.le above⟩

theorem pairwise_mergeSort_zipIdx (entries : List α) :
    (entries.zipIdx.mergeSort (List.zipIdxLE before)).Pairwise fun a b =>
      place key a < place key b := by
  have sorted : (entries.zipIdx.mergeSort (List.zipIdxLE before)).Pairwise fun a b =>
      List.zipIdxLE before a b = true := by
    apply List.pairwise_mergeSort
    · intro a b c
      simp only [zipIdxLE_iff key before before_iff]
      exact le_trans
    · intro a b
      simp only [Bool.or_eq_true, zipIdxLE_iff key before before_iff]
      exact le_total _ _
  apply (sorted.and (mergeSort_zipIdx_distinct entries _)).imp
  intro a b both
  refine lt_of_le_of_ne ((zipIdxLE_iff key before before_iff a b).mp both.1) ?_
  intro same
  exact both.2 (congrArg (fun position => (ofLex position).2) same)

theorem mergeSort_numbered (numbered : List (α × Nat))
    (tied : numbered.Pairwise fun a b => key a.1 = key b.1 → a.2 < b.2) :
    ∃ sorted : List (α × Nat), sorted.Perm numbered ∧
      sorted.Pairwise (fun a b => place key a < place key b) ∧
      (numbered.map Prod.fst).mergeSort before = sorted.map Prod.fst := by
  -- The numbers need not rise from entry to entry, so the places in the list are added to them.
  have sorted := pairwise_mergeSort_zipIdx (fun entry : α × Nat => key entry.1)
    (fun a b => before a.1 b.1) (fun a b => before_iff a.1 b.1) numbered
  refine ⟨numbered.mergeSort fun a b => before a.1 b.1, List.mergeSort_perm _ _, ?_, ?_⟩
  · rw [← List.mergeSort_zipIdx, List.pairwise_map]
    apply sorted.imp_of_mem
    intro ⟨a, i⟩ ⟨b, j⟩ left right less
    rw [place, place, Prod.Lex.toLex_lt_toLex] at less ⊢
    rcases less with less | ⟨same, less⟩
    · exact .inl less
    · obtain ⟨i_inside, rfl⟩ := getElem_of_mem_mergeSort numbered _ a i left
      obtain ⟨j_inside, rfl⟩ := getElem_of_mem_mergeSort numbered _ b j right
      exact .inr ⟨same, List.pairwise_iff_getElem.mp tied i j i_inside j_inside less same⟩
  · symm
    apply List.map_mergeSort
    intro a _ b _
    rfl

theorem mergeSort_eq_map (entries : List α) :
    ∃ sorted : List (α × Nat), sorted.Perm entries.zipIdx ∧
      sorted.Pairwise (fun a b => place key a < place key b) ∧
      entries.mergeSort before = sorted.map Prod.fst := by
  have sorted := mergeSort_numbered key before before_iff entries.zipIdx (zipIdx_tied key entries)
  rwa [List.zipIdx_map_fst] at sorted

theorem mergeSort_split (mark : α → Bool) (entries : List α)
    (apart : ∀ a ∈ entries, ∀ b ∈ entries, mark a = true → mark b = false → key a < key b) :
    entries.mergeSort before =
      (entries.filter mark).mergeSort before ++ (entries.filter (!mark ·)).mergeSort before := by
  have tied := zipIdx_tied key entries
  have part (kept : α → Bool) :
      (entries.zipIdx.filter (kept ∘ Prod.fst)).map Prod.fst = entries.filter kept := by
    rw [← List.filter_map, List.zipIdx_map_fst]
  obtain ⟨sorted, perm, rising, sorted_eq⟩ := mergeSort_eq_map key before before_iff entries
  obtain ⟨lower, lower_perm, lower_rising, lower_eq⟩ :=
    mergeSort_numbered key before before_iff _ (tied.filter (mark ∘ Prod.fst))
  obtain ⟨upper, upper_perm, upper_rising, upper_eq⟩ :=
    mergeSort_numbered key before before_iff _ (tied.filter ((!mark ·) ∘ Prod.fst))
  have both_rising : (lower ++ upper).Pairwise fun a b => place key a < place key b := by
    refine List.pairwise_append.mpr ⟨lower_rising, upper_rising, ?_⟩
    intro a left b right
    obtain ⟨a_listed, marked⟩ := List.mem_filter.mp (lower_perm.mem_iff.mp left)
    obtain ⟨b_listed, unmarked⟩ := List.mem_filter.mp (upper_perm.mem_iff.mp right)
    refine Prod.Lex.toLex_lt_toLex.mpr (.inl (apart _ ?_ _ ?_ marked (by simpa using unmarked)))
    · exact List.fst_mem_of_mem_zipIdx a_listed
    · exact List.fst_mem_of_mem_zipIdx b_listed
  have same : lower ++ upper = sorted := by
    apply List.Perm.eq_of_pairwise _ both_rising rising
    · exact (lower_perm.append upper_perm).trans
        ((List.filter_append_perm (mark ∘ Prod.fst) entries.zipIdx).trans perm.symm)
    · intro a b _ _ less more
      exact absurd more less.asymm
  rw [sorted_eq, ← same, List.map_append, ← lower_eq, ← upper_eq, part, part]

theorem mergeSort_interleaved (entries others all : List α)
    (interleaved : Interleaved entries others all)
    (apart : ∀ a ∈ entries, ∀ b ∈ others, key a < key b) :
    all.mergeSort before = entries.mergeSort before ++ others.mergeSort before := by
  -- An entry is told from the others by its key.
  obtain ⟨mark, mark_iff⟩ : ∃ mark : α → Bool,
      ∀ a, mark a = true ↔ ∀ b ∈ others, key a < key b :=
    ⟨fun a => decide (∀ b ∈ others, key a < key b), fun a => decide_eq_true_iff⟩
  have unmarked (b : α) (listed : b ∈ others) : mark b = false := by
    rw [← Bool.not_eq_true, mark_iff]
    exact fun below => lt_irrefl _ (below b listed)
  obtain ⟨kept, dropped⟩ := interleaved.filter_eq mark (fun a listed =>
    (mark_iff a).mpr (apart a listed)) unmarked
  rw [mergeSort_split key before before_iff mark all, kept, dropped]
  intro a _ b b_listed a_marked b_unmarked
  rcases (interleaved.mem_iff b).mp b_listed with own | other
  · rw [(mark_iff b).mpr (apart b own)] at b_unmarked
    cases b_unmarked
  · exact (mark_iff a).mp a_marked b other

end Stable

end Sorting

end Cartograph
