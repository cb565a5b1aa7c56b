import Breeze.Lib.Decimal

/-! The conditions of a device filter on installed software, after apps/api/src/services/filterEngine.ts, and what their SQL says
of the software inventory of a device. -/

namespace Breeze.Filters.InstalledSoftware

open Breeze.Lib.Decimal (Text)

section Conditions

inductive Scalar
  | string (s : Text)
  | number (n : ℚ)
  | boolean (b : Bool)
  | date (ms : ℤ)

inductive TimeUnit
  | minutes
  | hours
  | days
  | weeks
  | months

inductive FilterValue
  | scalar (s : Scalar)
  | list (items : List Scalar)
  | range (low high : Scalar)
  | relative (amount : ℚ) (unit : TimeUnit)

inductive FilterOperator
  | equals
  | notEquals
  | greaterThan
  | greaterThanOrEquals
  | lessThan
  | lessThanOrEquals
  | contains
  | notContains
  | startsWith
  | endsWith
  | «matches»
  | «in»
  | notIn
  | hasAny
  | hasAll
  | isEmpty
  | isNotEmpty
  | isNull
  | isNotNull
  | before
  | after
  | between
  | withinLast
  | notWithinLast
  deriving DecidableEq

inductive Match
  | ilike (pattern : Text)
  | equals (name : Text)
  | isIn (names : List Text)

/-- `EXISTS` asks for a row of software_inventory that belongs to the device and matches. -/
inductive SQL
  | always
  | «exists» (m : Match)
  | and (a b : SQL)
  | not (p : SQL)

inductive FilterError
  | unsupportedSoftware (operator : FilterOperator)

def escapeLikePattern (value : Text) : Text := value.flatMap fun c => if c = '\\' ∨ c = '%' ∨ c = '_' then ['\\', c] else [c]

-- `String(value)`
variable (toText : FilterValue → Text)

def signed (positive : Bool) (inner : SQL) : SQL := if positive then inner else .not inner

/-- The fields under `software.`; every one but `software.installed` is negated. -/
def buildConditionSQL (field : Text) (operator : FilterOperator) (value : FilterValue) : Except FilterError SQL :=
  let positive : Bool := field = "software.installed".toList
  let names (items : List Scalar) : List Text := items.map fun v => toText (.scalar v)
  match operator with
  | .contains => .ok (signed positive (.exists (.ilike ('%' :: (escapeLikePattern (toText value) ++ ['%'])))))
  | .notContains => .ok (.not (.exists (.ilike ('%' :: (escapeLikePattern (toText value) ++ ['%'])))))
  | .equals => .ok (signed positive (.exists (.equals (toText value))))
  | .in | .hasAny =>
    match value with
    | .list (v :: vs) => .ok (signed positive (.exists (.isIn (names (v :: vs)))))
    | _ => .ok .always
  | .hasAll =>
    match value with
    | .list (v :: vs) =>
      .ok (signed positive
        ((names vs).foldl (fun acc name => .and acc (.exists (.equals name))) (.exists (.equals (toText (.scalar v))))))
    | _ => .ok .always
  | operator => .error (.unsupportedSoftware operator)

end Conditions

section Inventory

variable (toText : FilterValue → Text) (ilike : Text → Text → Bool) (inventory : List Text)

def fits (name : Text) : Match → Bool
  | .ilike pattern => ilike name pattern
  | .equals n => name = n
  | .isIn names => name ∈ names

def holds : SQL → Bool
  | .always => true
  | .exists m => inventory.any (fits ilike · m)
  | .and a b => holds a && holds b
  | .not p => !holds p

lemma holds_foldl (acc : SQL) (names : List Text) :
    holds ilike inventory (names.foldl (fun acc name => .and acc (.exists (.equals name))) acc) =
      (holds ilike inventory acc && names.all fun name => holds ilike inventory (.exists (.equals name))) := by
  induction names generalizing acc with
  | nil => simp
  | cons name names ih => rw [List.foldl_cons, ih, holds, List.all_cons, Bool.and_assoc]

def namesSoftware : FilterOperator → FilterValue → Bool
  | .contains, _ | .equals, _ => true
  | _, .list (_ :: _) => true
  | _, _ => false

variable {operator : FilterOperator} {value : FilterValue} {p q : SQL}

lemma buildConditionSQL_signed (hop : operator ≠ .notContains)
    (hp : buildConditionSQL toText "software.installed".toList operator value = .ok p)
    (hq : buildConditionSQL toText "software.notInstalled".toList operator value = .ok q) :
    namesSoftware operator value = true ∧ q = .not p ∨ namesSoftware operator value = false ∧ p = .always ∧ q = .always := by
  cases operator with
  | notContains => exact absurd rfl hop
  | contains | equals =>
    cases hp
    cases hq
    exact .inl ⟨rfl, rfl⟩
  | «in» | hasAny | hasAll =>
    rcases value with s | (_ | ⟨v, vs⟩) | ⟨low, high⟩ | ⟨amount, unit⟩ <;> cases hp <;> cases hq
    · exact .inr ⟨rfl, rfl, rfl⟩
    · exact .inr ⟨rfl, rfl, rfl⟩
    · exact .inl ⟨rfl, rfl⟩
    · exact .inr ⟨rfl, rfl, rfl⟩
    · exact .inr ⟨rfl, rfl, rfl⟩
  | _ => cases hp

theorem not_installed_complement (operator : FilterOperator) (value : FilterValue) (hop : operator ≠ .notContains) (p q : SQL)
    (hp : buildConditionSQL toText "software.installed".toList operator value = .ok p)
    (hq : buildConditionSQL toText "software.notInstalled".toList operator value = .ok q) :
    (holds ilike inventory q = !holds ilike inventory p ↔ namesSoftware operator value = true) ∧
    ∀ items r, buildConditionSQL toText "software.installed".toList .hasAll (.list items) = .ok r →
      ∃ singles, items.mapM (fun v => buildConditionSQL toText "software.installed".toList .equals (.scalar v)) = .ok singles ∧
        holds ilike inventory r = singles.all (holds ilike inventory) := by
  refine ⟨?_, fun items r hr => ?_⟩
  · rcases buildConditionSQL_signed toText hop hp hq with ⟨hnames, rfl⟩ | ⟨hnames, rfl, rfl⟩
    · simp [hnames, holds]
    · simp [hnames, holds]
  · have hsingles : items.mapM (fun v => buildConditionSQL toText "software.installed".toList .equals (.scalar v)) =
        .ok (items.map fun v => .exists (.equals (toText (.scalar v)))) := List.mapM_pure
    refine ⟨_, hsingles, ?_⟩
    rw [List.all_map]
    cases items with
    | nil =>
      cases hr
      rfl
    | cons v items =>
      cases hr
      change holds ilike inventory (List.foldl _ _ _) = _
      rw [holds_foldl, List.all_map]
      simp [Function.comp_def]

theorem not_installed_complement_editor :
    holds (fun _ _ => false) ["editor".toList] (.not (.exists (.isIn ["editor".toList]))) =
      !holds (fun _ _ => false) ["editor".toList] (.exists (.isIn ["editor".toList])) :=
  (not_installed_complement (fun _ => "editor".toList) (fun _ _ => false) ["editor".toList] .in
    (.list [.string "editor".toList]) (by decide) _ _ rfl rfl).1.mpr rfl

/-- With nothing to look for every device has the software and every device lacks it. -/
theorem empty_list_installed_and_missing :
    ∃ p, buildConditionSQL (fun _ => []) "software.installed".toList .in (.list []) = .ok p ∧
      buildConditionSQL (fun _ => []) "software.notInstalled".toList .in (.list []) = .ok p ∧
      holds (fun _ _ => false) [] p = true :=
  ⟨.always, rfl, rfl, rfl⟩

end Inventory

end Breeze.Filters.InstalledSoftware
