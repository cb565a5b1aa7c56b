import Mathlib.Data.List.TakeWhile
import Breeze.Cron.Fields

/-! The items of a field, and the two readings of an item: the values the parser expands it to, and
the values the matcher takes it for. The matcher knows no names, and to it a value with a step stands
for itself alone. -/

namespace Breeze.Cron.Items

open Breeze.Lib.Decimal Breeze.Lib.Whitespace Fields List

structure Bound where
  value : ℕ
  named : Bool

inductive Bounds where
  | all
  | one (low : Bound)
  | range (low high : Bound)

structure Item where
  bounds : Bounds
  step : Option ℕ

def readBound (f : Field) (token : Text) : Option Bound :=
  match f.names.idxOf? (token.map Char.toLower) with
  | some named => some ⟨named + f.firstName, true⟩
  | none =>
    if isDigits token then
      if f.min ≤ number token ∧ number token ≤ f.max then some ⟨number token, false⟩ else none
    else none

def readBounds (f : Field) : List Text → Option Bounds
  | [low] => (readBound f low).map .one
  | [low, high] =>
    match readBound f low, readBound f high with
    | some low, some high => if low.value ≤ high.value then some (.range low high) else none
    | _, _ => none
  | _ => none

def readItem (f : Field) (listItem : Text) : Option Item :=
  match listItem.splitOn '/' with
  | [rangePart] =>
    if rangePart = ['*'] then some ⟨.all, none⟩
    else (readBounds f (rangePart.splitOn '-')).map fun bounds => ⟨bounds, none⟩
  | [rangePart, stepPart] =>
    if isStep stepPart then
      if rangePart = ['*'] then some ⟨.all, some (number stepPart)⟩
      else (readBounds f (rangePart.splitOn '-')).map fun bounds => ⟨bounds, some (number stepPart)⟩
    else none
  | _ => none

def Item.span (f : Field) (item : Item) : ℕ × ℕ :=
  match item.bounds with
  | .all => (f.min, f.max)
  | .one low => (low.value, if item.step.isNone then low.value else f.max)
  | .range low high => (low.value, high.value)

def Item.reach (min max : ℕ) (item : Item) : Option (ℕ × ℕ) :=
  match item.bounds with
  | .all => some (min, max)
  | .one low => if low.named then none else some (low.value, low.value)
  | .range low high => if low.named || high.named then none else some (low.value, high.value)

def stepped (step : Option ℕ) (range : ℕ × ℕ) (value : ℕ) : Bool :=
  range.1 ≤ value && value ≤ range.2 && (value - range.1) % step.getD 1 == 0

def Item.shows (f : Field) (item : Item) (value : ℕ) : Bool := stepped item.step (item.span f) value

def Item.fires (min max : ℕ) (item : Item) (value : ℕ) : Bool :=
  (item.reach min max).any fun range => stepped item.step range value

lemma readValue_eq (f : Field) (token : Text) : readValue f token = (readBound f token).map (·.value) := by
  simp only [readValue, readBound]
  cases f.names.idxOf? (token.map Char.toLower) with
  | some named => rfl
  | none => dsimp only; split_ifs <;> rfl

lemma validBounds_eq (f : Field) {bounds : List Text} (hne : bounds ≠ []) :
    validBounds f bounds = (readBounds f bounds).isSome := by
  match bounds with
  | [low] => cases hlow : readBound f low <;> simp [validBounds, readBounds, readValue_eq, hlow]
  | [low, high] =>
    cases hlow : readBound f low with
    | none => simp [validBounds, readBounds, readValue_eq, hlow]
    | some low' =>
      cases hhigh : readBound f high with
      | none => simp [validBounds, readBounds, readValue_eq, hlow, hhigh]
      | some high' =>
        by_cases hle : low'.value ≤ high'.value <;> simp [validBounds, readBounds, readValue_eq, hlow, hhigh, hle]
  | _ :: _ :: _ :: rest => simp [validBounds, readBounds]

lemma isValidCronItem_eq (f : Field) (listItem : Text) : isValidCronItem f listItem = (readItem f listItem).isSome := by
  by_cases hempty : listItem = []
  · subst hempty
    cases f <;> decide
  · rw [isValidCronItem, if_neg hempty, readItem]
    match listItem.splitOn '/' with
    | [] => rfl
    | [rangePart] =>
      have hbounds := validBounds_eq f (splitOnP_ne_nil (· == '-') rangePart)
      by_cases hstar : rangePart = ['*'] <;> simp [hstar, List.splitOn, hbounds]
    | [rangePart, stepPart] =>
      have hbounds := validBounds_eq f (splitOnP_ne_nil (· == '-') rangePart)
      by_cases hstep : isStep stepPart <;> by_cases hstar : rangePart = ['*'] <;>
        simp [hstep, hstar, List.splitOn, hbounds]
    | _ :: _ :: _ :: rest => simp

def Item.values (f : Field) (item : Item) : List ℕ :=
  stepValues (item.span f).1 (item.span f).2 (item.step.getD 1)

lemma expandBounds_eq (f : Field) (bounds : List Text) (step : Option ℕ) :
    expandBounds f bounds step = (readBounds f bounds).map fun bounds => Item.values f ⟨bounds, step⟩ := by
  match bounds with
  | [] => rfl
  | [low] => cases hlow : readBound f low <;> simp [expandBounds, readBounds, readValue_eq, hlow, Item.values, Item.span]
  | [low, high] =>
    cases hlow : readBound f low with
    | none => simp [expandBounds, readBounds, readValue_eq, hlow]
    | some low' =>
      cases hhigh : readBound f high with
      | none => simp [expandBounds, readBounds, readValue_eq, hlow, hhigh]
      | some high' =>
        by_cases hle : low'.value ≤ high'.value <;>
          simp [expandBounds, readBounds, readValue_eq, hlow, hhigh, hle, Item.values, Item.span]
  | _ :: _ :: _ :: rest => simp [expandBounds, readBounds]

lemma expandCronItem_eq (f : Field) (listItem : Text) :
    expandCronItem f listItem = (readItem f listItem).map (Item.values f) := by
  by_cases hempty : listItem = []
  · subst hempty
    cases f <;> decide
  · rw [expandCronItem, if_neg hempty, readItem]
    match listItem.splitOn '/' with
    | [] => rfl
    | [rangePart] =>
      by_cases hstar : rangePart = ['*']
      · simp [hstar, Item.values, Item.span]
      · simp [hstar, expandBounds_eq, Function.comp_def]
    | [rangePart, stepPart] =>
      by_cases hstep : isStep stepPart <;> by_cases hstar : rangePart = ['*'] <;>
        simp [hstep, hstar, expandBounds_eq, Item.values, Item.span, Function.comp_def]
    | _ :: _ :: _ :: rest => simp

variable {f : Field} {t token : Text} {bound : Bound} {low : ℕ} {α β : Type} {read : α → Option β} {l : List α}

lemma parseInt_digits (h : isDigits t = true) : parseInt t = some (number t : ℤ) := by
  rw [isDigits, Bool.and_eq_true, decide_eq_true_eq] at h
  obtain ⟨hne, hall⟩ := h
  have hdigits := List.all_eq_true.mp hall
  have hdrop : t.dropWhile isEcmaSpace = t := dropWhile_eq_self fun c hc => by
    obtain ⟨hlow, hhigh⟩ := digit_bounds (hdigits c hc)
    exact visible_not_space (by omega) (by omega)
  cases t with
  | nil => exact absurd rfl hne
  | cons c rest =>
    have hc := hdigits c mem_cons_self
    have hminus : c ≠ '-' := by
      rintro rfl
      exact absurd hc (by decide)
    have hplus : c ≠ '+' := by
      rintro rfl
      exact absurd hc (by decide)
    simp only [parseInt, hdrop]
    split
    case _ heq => exact absurd (List.cons.inj heq).1 hminus
    case _ heq => exact absurd (List.cons.inj heq).1 hplus
    case _ => simp only [takeWhile_eq_self_iff.mpr (all_eq_true.mp hall), reduceCtorEq, if_false, one_mul]

lemma parseInt_letter {c : Char} {rest : Text} (hspace : isEcmaSpace c = false) (hdigit : c.isDigit = false)
    (hminus : c ≠ '-') (hplus : c ≠ '+') : parseInt (c :: rest) = none := by
  have hdrop : (c :: rest).dropWhile isEcmaSpace = c :: rest := by
    rw [dropWhile_cons, hspace, if_neg Bool.false_ne_true]
  simp only [parseInt, hdrop]
  split
  case _ heq => exact absurd (List.cons.inj heq).1 hminus
  case _ heq => exact absurd (List.cons.inj heq).1 hplus
  case _ => simp [hdigit]

lemma letter_of_toLower {c : Char} (h : c.toLower.toNat ∈ Set.Icc 97 122) :
    isEcmaSpace c = false ∧ c.isDigit = false ∧ c ≠ '-' ∧ c ≠ '+' := by
  have hn : (65 ≤ c.toNat ∧ c.toNat ≤ 90) ∨ (97 ≤ c.toNat ∧ c.toNat ≤ 122) := by
    unfold Char.toLower at h
    split_ifs at h with hupper
    · exact Or.inl hupper
    · exact Or.inr h
  refine ⟨?_, ?_, ?_, ?_⟩
  · exact visible_not_space (by omega) (by omega)
  · rw [Bool.eq_false_iff]
    intro hd
    have hd := digit_bounds hd
    omega
  · rintro rfl
    revert hn
    decide
  · rintro rfl
    revert hn
    decide

lemma names_letters (f : Field) : ∀ name ∈ f.names, ∃ c rest, name = c :: rest ∧ c.toNat ∈ Set.Icc 97 122 := by
  have hall : ∀ name ∈ monthNames ++ dayNames, (name.head?.any fun c => 97 ≤ c.toNat && c.toNat ≤ 122) = true := by decide
  intro name hname
  have hmem : name ∈ monthNames ++ dayNames := by
    cases f with
    | month => exact mem_append_left _ hname
    | dayOfWeek => exact mem_append_right _ hname
    | _ => exact absurd hname not_mem_nil
  have hletter := hall name hmem
  cases name with
  | nil => exact absurd hletter (by decide)
  | cons c rest =>
    rw [List.head?_cons, Option.any_some, Bool.and_eq_true, decide_eq_true_eq, decide_eq_true_eq] at hletter
    exact ⟨c, rest, rfl, hletter⟩

lemma parseInt_named {k : ℕ} (h : f.names.idxOf? (token.map Char.toLower) = some k) : parseInt token = none := by
  obtain ⟨hk, heq, _⟩ := List.idxOf?_eq_some_iff.mp h
  obtain ⟨c, rest, hname, hletter⟩ := names_letters f _ (getElem_mem hk)
  rw [heq] at hname
  cases token with
  | nil => cases hname
  | cons d token =>
    rw [map_cons, List.cons.injEq] at hname
    rw [← hname.1] at hletter
    obtain ⟨hspace, hdigit, hminus, hplus⟩ := letter_of_toLower hletter
    exact parseInt_letter hspace hdigit hminus hplus

lemma parseInt_bound (h : readBound f token = some bound) :
    parseInt token = if bound.named then none else some (bound.value : ℤ) := by
  rw [readBound] at h
  cases hname : f.names.idxOf? (token.map Char.toLower) with
  | some k =>
    rw [hname] at h
    cases h
    exact parseInt_named hname
  | none =>
    rw [hname] at h
    dsimp only at h
    split_ifs at h with hdigits hrange
    cases h
    exact parseInt_digits hdigits

lemma segmentRange_eq {rangePart : Text} {bounds : Bounds} (hstar : rangePart ≠ ['*'])
    (h : readBounds f (rangePart.splitOn '-') = some bounds) (min max : ℕ) (step : Option ℕ) :
    segmentRange rangePart min max = (Item.reach min max ⟨bounds, step⟩).map fun range => ((range.1 : ℤ), (range.2 : ℤ)) := by
  rw [segmentRange, if_neg hstar]
  match hsplit : rangePart.splitOn '-' with
  | [] => exact absurd hsplit (splitOnP_ne_nil _ _)
  | [low] =>
    obtain ⟨hnot, rfl⟩ := not_mem_of_splitOn hsplit
    rw [hsplit, readBounds, Option.map_eq_some_iff] at h
    obtain ⟨bound, hbound, rfl⟩ := h
    rw [if_neg (by simpa using hnot), parseInt_bound hbound]
    cases hnamed : bound.named <;> simp [Item.reach, hnamed]
  | [low, high] =>
    have hmem : '-' ∈ rangePart := by
      by_contra hnot
      rw [splitOn_eq_singleton hnot] at hsplit
      cases hsplit
    rw [hsplit, readBounds] at h
    rw [if_pos (by simpa using hmem)]
    cases hlow : readBound f low with
    | none => simp [hlow] at h
    | some low' =>
      cases hhigh : readBound f high with
      | none => simp [hlow, hhigh] at h
      | some high' =>
        simp only [hlow, hhigh] at h
        split_ifs at h
        cases h
        simp only [getD_cons_zero, getD_cons_succ, parseInt_bound hlow, parseInt_bound hhigh]
        cases hnamed : low'.named <;> cases hnamed' : high'.named <;> simp [Item.reach, hnamed, hnamed']
  | _ :: _ :: _ :: rest => simp [hsplit, readBounds] at h

lemma stepped_eq (step : Option ℕ) (hstep : ∀ s ∈ step, 0 < s) (range : ℕ × ℕ) (value : ℕ) :
    (if (value : ℤ) < range.1 ∨ (range.2 : ℤ) < value then false
      else match step.map (Nat.cast : ℕ → ℤ) with
        | none => true
        | some step => if step ≤ 0 then true else ((value : ℤ) - range.1).tmod step == 0) = stepped step range value := by
  by_cases hout : (value : ℤ) < range.1 ∨ (range.2 : ℤ) < value
  · have hout' : ¬ (range.1 ≤ value ∧ value ≤ range.2) := by omega
    rw [if_pos hout, stepped, Bool.and_eq_false_imp.mpr]
    intro h
    rw [Bool.and_eq_true, decide_eq_true_eq, decide_eq_true_eq] at h
    exact absurd h hout'
  · have hle : range.1 ≤ value := by omega
    have hle' : value ≤ range.2 := by omega
    rw [if_neg hout, stepped, decide_eq_true hle, decide_eq_true hle']
    cases step with
    | none => simp [Nat.mod_one]
    | some s =>
      have hpos := hstep s rfl
      simp only [Option.map_some, Option.getD_some]
      rw [if_neg (by omega), Bool.and_self, Bool.true_and, Bool.eq_iff_iff, beq_iff_eq, beq_iff_eq, ← Nat.cast_sub hle, ← Int.dvd_iff_tmod_eq_zero,
      Int.natCast_dvd_natCast, Nat.dvd_iff_mod_eq_zero]

lemma le_ofDigitChars (t : Text) (init : ℕ) : init ≤ Nat.ofDigitChars 10 t init := by
  induction t generalizing init with
  | nil => exact le_of_eq Nat.ofDigitChars_nil.symm
  | cons c t ih =>
    rw [Nat.ofDigitChars_cons]
    exact le_trans (by omega) (ih _)

lemma step_digits (h : isStep t = true) : isDigits t = true ∧ 0 < number t := by
  cases t with
  | nil => cases h
  | cons c rest =>
    simp only [isStep, Bool.and_eq_true, decide_eq_true_eq] at h
    obtain ⟨⟨hdigit, hzero⟩, hrest⟩ := h
    refine ⟨?_, ?_⟩
    · simp only [isDigits, all_cons, hdigit, hrest]
      rfl
    · have hle := le_ofDigitChars rest (10 * 0 + (c.toNat - '0'.toNat))
      have hpos : 0 < c.toNat - '0'.toNat := by
        have hge := (digit_bounds hdigit).1
        have hne : c.toNat ≠ 48 := fun heq => hzero (Char.toNat_inj.mp heq)
        have : '0'.toNat = 48 := rfl
        omega
      rw [number, Nat.ofDigitChars_cons]
      omega

variable {listItem : Text} {item : Item}

lemma readItem_cases (h : readItem f listItem = some item) :
    ∃ rangePart, (∀ s ∈ item.step, 0 < s) ∧
      (rangePart = ['*'] ∧ item.bounds = .all ∨ rangePart ≠ ['*'] ∧ readBounds f (rangePart.splitOn '-') = some item.bounds) ∧
      (listItem.splitOn '/' = [rangePart] ∧ item.step = none ∨
        ∃ stepPart, listItem.splitOn '/' = [rangePart, stepPart] ∧ isStep stepPart = true ∧
          item.step = some (number stepPart)) := by
  rw [readItem] at h
  split at h
  case _ rangePart hsplit =>
    refine ⟨rangePart, ?_⟩
    split_ifs at h with hstar
    · cases h
      exact ⟨fun s hs => (by cases hs), Or.inl ⟨hstar, rfl⟩, Or.inl ⟨hsplit, rfl⟩⟩
    · obtain ⟨bounds, hbounds, rfl⟩ := Option.map_eq_some_iff.mp h
      exact ⟨fun s hs => (by cases hs), Or.inr ⟨hstar, hbounds⟩, Or.inl ⟨hsplit, rfl⟩⟩
  case _ rangePart stepPart hsplit =>
    refine ⟨rangePart, ?_⟩
    split_ifs at h with hstep hstar
    · cases h
      refine ⟨?_, Or.inl ⟨hstar, rfl⟩, Or.inr ⟨stepPart, hsplit, hstep, rfl⟩⟩
      rintro s ⟨⟩
      exact (step_digits hstep).2
    · obtain ⟨bounds, hbounds, rfl⟩ := Option.map_eq_some_iff.mp h
      refine ⟨?_, Or.inr ⟨hstar, hbounds⟩, Or.inr ⟨stepPart, hsplit, hstep, rfl⟩⟩
      rintro s ⟨⟩
      exact (step_digits hstep).2
  case _ => cases h

lemma matchesCronSegment_eq (h : readItem f listItem = some item)
    (hspace : ∀ c ∈ listItem, isEcmaSpace c = false) (value min max : ℕ) :
    matchesCronSegment listItem value min max = item.fires min max value := by
  obtain ⟨rangePart, hpos, hbounds, hstep⟩ := readItem_cases h
  have hne : listItem ≠ [] := by
    rintro rfl
    have hnone : readItem f [] = none := by cases f <;> rfl
    rw [hnone] at h
    cases h
  have hrange : segmentRange rangePart min max =
      (item.reach min max).map fun range => ((range.1 : ℤ), (range.2 : ℤ)) := by
    rcases hbounds with ⟨rfl, hall⟩ | ⟨hstar, hbounds⟩
    · simp [segmentRange, Item.reach, hall]
    · exact segmentRange_eq hstar hbounds min max item.step
  have hparts : (listItem.splitOn '/').getD 0 [] = rangePart ∧
      (if (listItem.splitOn '/').getD 1 [] = [] then none else parseInt ((listItem.splitOn '/').getD 1 [])) =
        item.step.map Nat.cast := by
    rcases hstep with ⟨hsplit, hnone⟩ | ⟨stepPart, hsplit, hstep, hsome⟩
    · rw [hsplit, hnone]
      exact ⟨rfl, rfl⟩
    · have hdigits := (step_digits hstep).1
      have hne : stepPart ≠ [] := by
        rintro rfl
        cases hstep
      rw [hsplit, hsome]
      refine ⟨rfl, ?_⟩
      simp only [getD_cons_succ, getD_cons_zero, if_neg hne, parseInt_digits hdigits, Option.map_some]
  rw [matchesCronSegment, trimBy_eq_self hspace]
  dsimp only
  rw [if_neg hne, hparts.1, hparts.2, hrange, Item.fires]
  cases item.reach min max with
  | none => rfl
  | some range => exact stepped_eq item.step hpos range value

lemma mem_stepValues {high step value : ℕ} :
    value ∈ stepValues low high step ↔ low ≤ value ∧ value ≤ high ∧ (value - low) % step = 0 := by
  rw [stepValues]
  split_ifs with hle
  · simp only [mem_map, mem_range]
    constructor
    · rintro ⟨k, hk, rfl⟩
      have hmul := Nat.mul_le_of_le_div step k (high - low) (by omega)
      rw [Nat.mul_comm] at hmul
      refine ⟨by omega, by omega, ?_⟩
      rw [Nat.add_sub_cancel_left, Nat.mul_mod_right]
    · rintro ⟨hlow, hhigh, hmod⟩
      have hmul := Nat.mul_div_cancel' (Nat.dvd_of_mod_eq_zero hmod)
      refine ⟨(value - low) / step, ?_, by omega⟩
      have := Nat.div_le_div_right (c := step) (show value - low ≤ high - low by omega)
      omega
  · simp only [not_mem_nil, false_iff]
    omega

lemma mem_values {value : ℕ} : value ∈ item.values f ↔ item.shows f value = true := by
  rw [Item.values, mem_stepValues, Item.shows, stepped, Bool.and_eq_true, Bool.and_eq_true, decide_eq_true_eq,
    decide_eq_true_eq, beq_iff_eq, and_assoc]

lemma stepped_low (step : Option ℕ) {range : ℕ × ℕ} (h : range.1 ≤ range.2) : stepped step range range.1 = true := by
  rw [stepped, decide_eq_true le_rfl, decide_eq_true h, Nat.sub_self, Nat.zero_mod]
  rfl

lemma bound_le (h : readBound f token = some bound) : bound.value ≤ f.max := by
  rw [readBound] at h
  cases hname : f.names.idxOf? (token.map Char.toLower) with
  | some k =>
    rw [hname] at h
    cases h
    obtain ⟨hk, _⟩ := List.idxOf?_eq_some_iff.mp hname
    cases f <;> simp only [Field.names, Field.firstName, Field.max, length_nil] at hk ⊢
    · omega
    · omega
    · omega
    · have : monthNames.length = 12 := rfl
      omega
    · have : dayNames.length = 7 := rfl
      omega
  | none =>
    rw [hname] at h
    dsimp only at h
    split_ifs at h with hdigits hrange
    cases h
    exact hrange.2

lemma unnamed (h : readBound f token = some bound) (hnames : f.names = []) : bound.named = false := by
  rw [readBound, hnames] at h
  simp only [List.idxOf?_nil] at h
  split_ifs at h
  cases h
  rfl

/-- What validity says of an item: its range is not empty, ends in the field's range, and it has a name
only in a field that has names. -/
structure Item.Read (f : Field) (item : Item) : Prop where
  span_le : (item.span f).1 ≤ (item.span f).2
  span_max : (item.span f).2 ≤ f.max
  reach_some : f.names = [] → ∃ range, item.reach f.min f.max = some range ∧ range.1 ≤ range.2 ∧ range.2 ≤ f.max

lemma readItem_read (h : readItem f listItem = some item) : item.Read f := by
  obtain ⟨rangePart, _, ⟨_, hall⟩ | ⟨_, hbounds⟩, _⟩ := readItem_cases h
  · have hle : f.min ≤ f.max := by cases f <;> decide
    have hspan : item.span f = (f.min, f.max) := by simp [Item.span, hall]
    refine ⟨by rwa [hspan], by rw [hspan], fun _ => ⟨(f.min, f.max), ?_, hle, le_rfl⟩⟩
    simp [Item.reach, hall]
  · match rangePart.splitOn '-', hbounds with
    | [low], hbounds =>
      rw [readBounds, Option.map_eq_some_iff] at hbounds
      obtain ⟨bound, hbound, heq⟩ := hbounds
      have hle := bound_le hbound
      refine ⟨?_, ?_, fun hnames => ⟨(bound.value, bound.value), ?_, le_rfl, hle⟩⟩
      · simp only [Item.span, ← heq]
        split_ifs <;> omega
      · simp only [Item.span, ← heq]
        split_ifs <;> omega
      · simp [Item.reach, ← heq, unnamed hbound hnames]
    | [low, high], hbounds =>
      rw [readBounds] at hbounds
      cases hlow : readBound f low with
      | none => simp [hlow] at hbounds
      | some low' =>
        cases hhigh : readBound f high with
        | none => simp [hlow, hhigh] at hbounds
        | some high' =>
          simp only [hlow, hhigh] at hbounds
          split_ifs at hbounds with hle
          have heq := Option.some.inj hbounds
          have hmax := bound_le hhigh
          have hspan : item.span f = (low'.value, high'.value) := by simp [Item.span, ← heq]
          refine ⟨by rwa [hspan], by rwa [hspan], fun hnames => ⟨(low'.value, high'.value), ?_, hle, hmax⟩⟩
          simp [Item.reach, ← heq, unnamed hlow hnames, unnamed hhigh hnames]

def readField (f : Field) (field : Text) : Option (List Item) := (field.splitOn ',').mapM (readItem f)

lemma mapM_some {items : List β} (h : l.mapM read = some items) : List.Forall₂ (fun x item => read x = some item) l items := by
  induction l generalizing items with
  | nil =>
    rw [mapM_nil] at h
    cases h
    exact .nil
  | cons x l ih =>
    rw [mapM_cons] at h
    obtain ⟨item, hitem, htail⟩ := Option.bind_eq_some_iff.mp h
    obtain ⟨rest, hrest, heq⟩ := Option.bind_eq_some_iff.mp htail
    cases heq
    exact .cons hitem (ih hrest)

lemma mapM_isSome (l : List α) : (l.mapM read).isSome = l.all fun x => (read x).isSome := by
  induction l with
  | nil => rfl
  | cons x l ih =>
    rw [mapM_cons, all_cons, ← ih]
    cases read x <;> cases l.mapM read <;> rfl

variable {field : Text} {items : List Item}

lemma isValidCronField_eq (f : Field) (field : Text) : isValidCronField f field = (readField f field).isSome := by
  rw [isValidCronField, funext (isValidCronItem_eq f), readField, mapM_isSome]

lemma exists_readField (h : isValidCronField f field = true) : ∃ items, readField f field = some items :=
  Option.isSome_iff_exists.mp (isValidCronField_eq f field ▸ h)

lemma readField_read (h : readField f field = some items) : items ≠ [] ∧ ∀ item ∈ items, item.Read f := by
  have hforall := mapM_some h
  constructor
  · rintro rfl
    exact splitOnP_ne_nil _ _ (List.forall₂_nil_right_iff.mp hforall)
  · clear h
    generalize field.splitOn ',' = l at hforall
    induction hforall with
    | nil => exact fun item hitem => absurd hitem not_mem_nil
    | cons hread _ ih => exact List.forall_mem_cons.mpr ⟨readItem_read hread, ih⟩

lemma mapM_expand {l : List Text} (h : List.Forall₂ (fun listItem item => readItem f listItem = some item) l items) :
    l.mapM (expandCronItem f) = some (items.map (Item.values f)) := by
  induction h with
  | nil => rfl
  | cons hread _ ih =>
    rw [mapM_cons, ih, expandCronItem_eq, hread]
    rfl

lemma expandCronField_eq (h : readField f field = some items) :
    ∃ values, expandCronField f field = some values ∧
      ∀ value, value ∈ values ↔ items.any (fun item => item.shows f value) = true := by
  obtain ⟨hne, hread⟩ := readField_read h
  have hmem : ∀ value, value ∈ (items.map (Item.values f)).flatten ↔
      items.any (fun item => item.shows f value) = true := by
    intro value
    simp only [mem_flatten, mem_map, exists_exists_and_eq_and, mem_values, any_eq_true]
  refine ⟨(items.map (Item.values f)).flatten, ?_, hmem⟩
  have hflat : (items.map (Item.values f)).flatten ≠ [] := by
    obtain ⟨item, hitem⟩ := exists_mem_of_ne_nil items hne
    apply ne_nil_of_mem (a := (item.span f).1)
    exact (hmem _).mpr (List.any_eq_true.mpr ⟨item, hitem, stepped_low _ (hread item hitem).span_le⟩)
  have hexpand := mapM_expand (mapM_some h)
  rw [expandCronField, hexpand]
  exact if_neg hflat

lemma expandCronField_isSome (f : Field) (field : Text) : (expandCronField f field).isSome = isValidCronField f field := by
  rw [isValidCronField_eq]
  cases h : readField f field with
  | some items =>
    obtain ⟨values, hvalues, -⟩ := expandCronField_eq h
    rw [hvalues]
    rfl
  | none =>
    have hexpand : ((field.splitOn ',').mapM (expandCronItem f)).isSome = (readField f field).isSome := by
      simp only [readField, mapM_isSome, expandCronItem_eq, Option.isSome_map]
    rw [h, Option.isSome_none, Option.isSome_eq_false_iff, Option.isNone_iff_eq_none] at hexpand
    rw [expandCronField, hexpand]
    rfl

theorem valid_iff_parsed {pattern : Text} (hfive : (cronWords pattern).length = 5) :
    isStructurallyValidCron pattern = true ↔ parseFiveFieldCron pattern ≠ none := by
  match hwords : cronWords pattern, hfive with
  | [minute, hour, dayOfMonth, month, dayOfWeek], _ =>
    simp only [isStructurallyValidCron, parseFiveFieldCron, hwords, ← expandCronField_isSome, ← Option.isSome_iff_ne_none]
    cases expandCronField .minute minute <;> cases expandCronField .hour hour <;>
      cases expandCronField .dayOfMonth dayOfMonth <;> cases expandCronField .month month <;>
      cases expandCronField .dayOfWeek dayOfWeek <;> simp

theorem valid_iff_parsed_weekdays : (cronWords "0 9 * * mon-fri".toList).length = 5 ∧
    (isStructurallyValidCron "0 9 * * mon-fri".toList = true ↔ parseFiveFieldCron "0 9 * * mon-fri".toList ≠ none) :=
  ⟨by decide +kernel, valid_iff_parsed (by decide +kernel)⟩

lemma readField_star (h : readField f ['*'] = some items) : items = [⟨.all, none⟩] := by
  have hstar : readField f ['*'] = some [⟨.all, none⟩] := by cases f <;> rfl
  rw [hstar] at h
  exact (Option.some.inj h).symm

lemma any_segments {l : List Text} (h : List.Forall₂ (fun listItem item => readItem f listItem = some item) l items)
    (hspace : ∀ listItem ∈ l, ∀ c ∈ listItem, isEcmaSpace c = false) (value min max : ℕ) :
    l.any (fun segment => matchesCronSegment segment value min max) = items.any fun item => item.fires min max value := by
  induction h with
  | nil => rfl
  | cons hread _ ih =>
    rw [any_cons, any_cons, matchesCronSegment_eq hread (hspace _ mem_cons_self),
      ih fun listItem hmem => hspace listItem (mem_cons_of_mem _ hmem)]

lemma matchesCronField_eq (h : readField f field = some items) (hspace : ∀ c ∈ field, isEcmaSpace c = false)
    (value min max : ℕ) (hmin : min ≤ value) (hmax : value ≤ max) :
    matchesCronField field value min max = items.any fun item => item.fires min max value := by
  rw [matchesCronField, trimBy_eq_self hspace]
  by_cases hstar : field = ['*']
  · subst hstar
    rw [readField_star h]
    simp [Item.fires, Item.reach, stepped, hmin, hmax, Nat.mod_one]
  · simp only [hstar, decide_false, Bool.false_or]
    apply any_segments (mapM_some h)
    intro listItem hmem c hc
    exact hspace c (splitOnP_pieces hmem c hc).2

end Breeze.Cron.Items
