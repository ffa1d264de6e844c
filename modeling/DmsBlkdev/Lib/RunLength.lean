import Mathlib.Data.List.Chain
import Mathlib.Data.List.Basic

/-!
# Maximal runs of a labelled interval

A function on the positions cuts every interval `[start, start + count)` into
maximal runs of one label.  `IsMaximal` says what such a cut is; `runs`
computes it by structural recursion, and `IsMaximal.eq_runs` shows that no
other list of runs is one.  `prefixLength` measures the longest prefix on
which a test holds, which is how a scanning loop finds the end of a run.
-/

namespace Lib.RunLength

universe u
variable {Label : Type u}

/-- A stretch of consecutive positions that carry one label. -/
structure Run (Label : Type u) where
  label : Label
  start : Nat
  length : Nat
  deriving DecidableEq, Repr

namespace Run

def stop (run : Run Label) : Nat := run.start + run.length

def positions (run : Run Label) : List Nat := List.range' run.start run.length

def Uniform (f : Nat → Label) (run : Run Label) : Prop :=
  ∀ i, run.start ≤ i → i < run.stop → f i = run.label

end Run

/-- Nonempty runs that follow one another from `start` up to `stop`. -/
def Tiles (start stop : Nat) : List (Run Label) → Prop
  | [] => start = stop
  | run :: rest => run.start = start ∧ 0 < run.length ∧ Tiles run.stop stop rest

theorem Tiles.le {start stop : Nat} {list : List (Run Label)} (tiles : Tiles start stop list) :
    start ≤ stop := by
  induction list generalizing start with
  | nil => exact Nat.le_of_eq tiles
  | cons run rest inductionHypothesis =>
      obtain ⟨here, _, tail⟩ := tiles
      have bound := inductionHypothesis tail
      simp only [Run.stop] at bound
      omega

theorem Tiles.positions {start stop : Nat} {list : List (Run Label)}
    (tiles : Tiles start stop list) :
    list.flatMap Run.positions = List.range' start (stop - start) := by
  induction list generalizing start with
  | nil => simp [show start = stop from tiles]
  | cons run rest inductionHypothesis =>
      obtain ⟨here, _, tail⟩ := tiles
      have bound := tail.le
      have split : stop - start = run.length + (stop - run.stop) := by
        simp only [Run.stop] at bound ⊢
        omega
      rw [List.flatMap_cons, inductionHypothesis tail, split, Run.positions, Run.stop, here]
      exact List.range'_append_1

theorem Tiles.bounds {start stop : Nat} {list : List (Run Label)}
    (tiles : Tiles start stop list) (run : Run Label) (member : run ∈ list) :
    start ≤ run.start ∧ 0 < run.length ∧ run.stop ≤ stop := by
  induction list generalizing start with
  | nil => simp at member
  | cons head rest inductionHypothesis =>
      obtain ⟨here, positive, tail⟩ := tiles
      rcases List.mem_cons.mp member with equality | inRest
      · subst equality
        exact ⟨Nat.le_of_eq here.symm, positive, tail.le⟩
      · obtain ⟨lower, nonempty, upper⟩ := inductionHypothesis tail inRest
        simp only [Run.stop] at lower upper ⊢
        exact ⟨by omega, nonempty, upper⟩

/-- The cut of `[start, stop)` into maximal runs of `f`. -/
structure IsMaximal (f : Nat → Label) (start stop : Nat) (list : List (Run Label)) : Prop where
  tiles : Tiles start stop list
  uniform : ∀ run ∈ list, run.Uniform f
  alternating : list.IsChain fun first second => first.label ≠ second.label

section Prefix

/-- How many positions from `start` on, at most `count`, pass the test. -/
def prefixLength (test : Nat → Bool) : Nat → Nat → Nat
  | _, 0 => 0
  | start, count + 1 => if test start then prefixLength test (start + 1) count + 1 else 0

theorem prefixLength_le (test : Nat → Bool) (start count : Nat) :
    prefixLength test start count ≤ count := by
  induction count generalizing start with
  | zero => exact Nat.le_refl 0
  | succ count inductionHypothesis =>
      unfold prefixLength
      split
      · exact Nat.succ_le_succ (inductionHypothesis _)
      · exact Nat.zero_le _

theorem prefixLength_holds (test : Nat → Bool) (start count : Nat) {i : Nat} (lower : start ≤ i)
    (upper : i < start + prefixLength test start count) : test i = true := by
  induction count generalizing start with
  | zero => simp only [prefixLength] at upper; omega
  | succ count inductionHypothesis =>
      rw [prefixLength] at upper
      by_cases passed : test start = true
      · rw [if_pos passed] at upper
        rcases Nat.eq_or_lt_of_le lower with equality | later
        · exact equality ▸ passed
        · exact inductionHypothesis (start + 1) later (by omega)
      · rw [if_neg passed] at upper
        omega

theorem prefixLength_stops (test : Nat → Bool) (start count : Nat)
    (short : prefixLength test start count < count) :
    test (start + prefixLength test start count) = false := by
  induction count generalizing start with
  | zero => simp [prefixLength] at short
  | succ count inductionHypothesis =>
      rw [prefixLength] at short ⊢
      by_cases passed : test start = true
      · rw [if_pos passed] at short ⊢
        have next := inductionHypothesis (start + 1) (by omega)
        rwa [show start + (prefixLength test (start + 1) count + 1) =
          start + 1 + prefixLength test (start + 1) count by omega]
      · rw [if_neg passed]
        simpa using passed

/-- The two facts above pin the length down. -/
theorem prefixLength_unique {test : Nat → Bool} {start count length : Nat}
    (bound : length ≤ count) (holds : ∀ i, start ≤ i → i < start + length → test i = true)
    (stops : length < count → test (start + length) = false) :
    prefixLength test start count = length := by
  rcases Nat.lt_trichotomy (prefixLength test start count) length with less | equal | more
  · have failed := prefixLength_stops test start count (by omega)
    have passed := holds (start + prefixLength test start count) (by omega) (by omega)
    exact absurd (failed.symm.trans passed) (by decide)
  · exact equal
  · have failed := stops (Nat.lt_of_lt_of_le more (prefixLength_le test start count))
    have passed : test (start + length) = true :=
      prefixLength_holds test start count (by omega) (by omega)
    exact absurd (failed.symm.trans passed) (by decide)

theorem prefixLength_congr {first second : Nat → Bool} {start other count : Nat}
    (same : ∀ i, i < count → first (start + i) = second (other + i)) :
    prefixLength first start count = prefixLength second other count := by
  induction count generalizing start other with
  | zero => rfl
  | succ count inductionHypothesis =>
      have here : first start = second other := same 0 (Nat.succ_pos _)
      have later : prefixLength first (start + 1) count =
          prefixLength second (other + 1) count := by
        apply inductionHypothesis
        intro i small
        have shifted := same (i + 1) (Nat.succ_lt_succ small)
        rwa [Nat.add_right_comm start, Nat.add_right_comm other]
      rw [prefixLength, prefixLength, here, later]

theorem prefixLength_pos {test : Nat → Bool} {start count : Nat} (nonempty : 0 < count)
    (passed : test start = true) : 0 < prefixLength test start count := by
  cases count with
  | zero => omega
  | succ count => simp [prefixLength, passed]

theorem prefixLength_append {test : Nat → Bool} {start first second : Nat}
    (full : prefixLength test start first = first) :
    prefixLength test start (first + second) =
      first + prefixLength test (start + first) second := by
  apply prefixLength_unique
  · exact Nat.add_le_add_left (prefixLength_le _ _ _) _
  · intro i lower upper
    by_cases early : i < start + first
    · exact prefixLength_holds test start first lower (by omega)
    · exact prefixLength_holds test (start + first) second (by omega) (by omega)
  · intro short
    have failed := prefixLength_stops test (start + first) second (by omega)
    rwa [Nat.add_assoc] at failed

end Prefix

section Runs

variable [DecidableEq Label]

def extend (label : Label) (start : Nat) : List (Run Label) → List (Run Label)
  | [] => [⟨label, start, 1⟩]
  | run :: rest =>
      if run.label = label then ⟨label, start, run.length + 1⟩ :: rest
      else ⟨label, start, 1⟩ :: run :: rest

/-- The maximal runs of `f` on `[start, start + count)`. -/
def runs (f : Nat → Label) : Nat → Nat → List (Run Label)
  | _, 0 => []
  | start, count + 1 => extend (f start) start (runs f (start + 1) count)

theorem extend_isMaximal {f : Nat → Label} {start stop : Nat} {list : List (Run Label)}
    (maximal : IsMaximal f (start + 1) stop list) :
    IsMaximal f start stop (extend (f start) start list) := by
  obtain ⟨tiles, uniform, alternating⟩ := maximal
  have single : Run.Uniform f ⟨f start, start, 1⟩ := by
    intro i lower upper
    have : i = start := by simp only [Run.stop] at lower upper; omega
    rw [this]
  cases list with
  | nil => exact ⟨⟨rfl, by simp, tiles⟩, by simpa [extend] using single, by simp [extend]⟩
  | cons run rest =>
      obtain ⟨here, positive, tail⟩ := tiles
      by_cases same : run.label = f start
      · rw [extend, if_pos same]
        refine ⟨⟨rfl, by simp, ?_⟩, ?_, ?_⟩
        · simpa [Run.stop, here, Nat.add_assoc, Nat.add_comm 1] using tail
        · intro other member
          rcases List.mem_cons.mp member with equality | inRest
          · subst equality
            intro i lower upper
            simp only [Run.stop] at lower upper
            rcases Nat.eq_or_lt_of_le lower with first | later
            · rw [← first]
            · rw [uniform run (by simp) i (by omega) (by simp only [Run.stop]; omega), same]
          · exact uniform other (by simp [inRest])
        · cases rest with
          | nil => simp
          | cons next rest =>
              simp only [List.isChain_cons_cons] at alternating ⊢
              exact ⟨same ▸ alternating.1, alternating.2⟩
      · rw [extend, if_neg same]
        refine ⟨⟨rfl, by simp, here, positive, tail⟩, ?_, ?_⟩
        · intro other member
          rcases List.mem_cons.mp member with equality | inRest
          · exact equality ▸ single
          · exact uniform other inRest
        · exact List.isChain_cons_cons.mpr ⟨fun equality => same equality.symm, alternating⟩

theorem runs_isMaximal (f : Nat → Label) (start count : Nat) :
    IsMaximal f start (start + count) (runs f start count) := by
  induction count generalizing start with
  | zero => exact ⟨rfl, by simp [runs], by simp [runs]⟩
  | succ count inductionHypothesis =>
      have next := inductionHypothesis (start + 1)
      rw [Nat.add_right_comm] at next
      exact extend_isMaximal next

omit [DecidableEq Label] in
theorem IsMaximal.tail {f : Nat → Label} {start stop : Nat} {run : Run Label}
    {rest : List (Run Label)} (maximal : IsMaximal f start stop (run :: rest)) :
    IsMaximal f run.stop stop rest :=
  ⟨maximal.tiles.2.2, fun other member => maximal.uniform other (by simp [member]),
    maximal.alternating.tail⟩

theorem IsMaximal.head_eq {f : Nat → Label} {start stop : Nat} {run : Run Label}
    {rest : List (Run Label)} (maximal : IsMaximal f start stop (run :: rest)) :
    run = ⟨f start, start,
      prefixLength (fun i => decide (f i = f start)) start (stop - start)⟩ := by
  obtain ⟨⟨here, positive, tail⟩, uniform, alternating⟩ := maximal
  have headUniform := uniform run (by simp)
  have label : f start = run.label :=
    headUniform _ (Nat.le_of_eq here) (by simp only [Run.stop]; omega)
  have bound := tail.le
  have length : prefixLength (fun i => decide (f i = f start)) start (stop - start) =
      run.length := by
    apply prefixLength_unique
    · simp only [Run.stop] at bound
      omega
    · intro i lower upper
      simp [label, headUniform i (by omega) (by simp only [Run.stop]; omega)]
    · intro short
      cases rest with
      | nil =>
          simp only [Tiles, Run.stop] at tail
          omega
      | cons next rest =>
          have different := (List.isChain_cons_cons.mp alternating).1
          have nextBounds := tail.bounds next (by simp)
          have value := uniform next (by simp) next.start (Nat.le_refl _)
            (by simp only [Run.stop]; omega)
          have origin : next.start = start + run.length := by
            rw [tail.1, Run.stop, here]
          rw [← origin, decide_eq_false_iff_not, value, label]
          exact fun equality => different equality.symm
  cases run
  simp only at here label length
  rw [length, label, here]

/-- Two maximal cuts of one interval are equal. -/
theorem IsMaximal.unique {f : Nat → Label} {start stop : Nat} {first second : List (Run Label)}
    (left : IsMaximal f start stop first) (right : IsMaximal f start stop second) :
    first = second := by
  induction first generalizing start second with
  | nil =>
      cases second with
      | nil => rfl
      | cons run rest =>
          have same : start = stop := left.tiles
          have bounds := right.tiles.bounds run (by simp)
          simp only [Run.stop] at bounds
          omega
  | cons run rest inductionHypothesis =>
      cases second with
      | nil =>
          have same : start = stop := right.tiles
          have bounds := left.tiles.bounds run (by simp)
          simp only [Run.stop] at bounds
          omega
      | cons other others =>
          have equality : run = other := left.head_eq.trans right.head_eq.symm
          subst equality
          rw [inductionHypothesis left.tail right.tail]

theorem IsMaximal.eq_runs {f : Nat → Label} {start count : Nat} {list : List (Run Label)}
    (maximal : IsMaximal f start (start + count) list) : list = runs f start count :=
  maximal.unique (runs_isMaximal f start count)

/-- How a scanning loop produces the runs: the longest prefix, then the rest. -/
theorem runs_eq_cons (f : Nat → Label) (start count : Nat) (nonempty : 0 < count) :
    runs f start count =
      let length := prefixLength (fun i => decide (f i = f start)) start count
      ⟨f start, start, length⟩ :: runs f (start + length) (count - length) := by
  have maximal := runs_isMaximal f start count
  generalize runs f start count = list at maximal
  cases list with
  | nil =>
      have same : start = start + count := maximal.tiles
      omega
  | cons run rest =>
      have head := maximal.head_eq
      have bound := prefixLength_le (fun i => decide (f i = f start)) start count
      rw [Nat.add_sub_cancel_left] at head
      have remaining := maximal.tail
      subst head
      simp only [Run.stop] at remaining
      rw [show start + count = start +
        prefixLength (fun i => decide (f i = f start)) start count +
          (count - prefixLength (fun i => decide (f i = f start)) start count) by omega]
        at remaining
      rw [remaining.eq_runs]

end Runs

end Lib.RunLength
