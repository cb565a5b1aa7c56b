import Breeze.Lib.JsonText
import Breeze.Lib.Quoted
import Breeze.Lib.NumberText

/-! The canonical text of approval arguments, after packages/shared/src/canonicalize. -/

namespace Breeze.Approval.Canonicalize

open Breeze.Lib.Decimal Breeze.Lib.JsonText Breeze.Lib.Quoted Breeze.Lib.NumberText

inductive Scalar where
  | null
  | bool (b : Bool)
  | num (x : JsNumber)
  | str (s : JsString)

abbrev Value := Tree JsString Scalar

def WF : Value → Prop :=
  Tree.fold (fun _ => True) (fun ps => ∀ p ∈ ps, p) (fun ms => (ms.map Prod.fst).Nodup ∧ ∀ m ∈ ms, m.2)

structure JsonValue where
  value : Value
  wf : WF value

def Same : Value → Value → Prop :=
  Tree.fold (fun a w => w = .leaf a)
    (fun fs w => ∃ ws, w = .arr ws ∧ List.Forall₂ (fun f x => f x) fs ws)
    (fun ms w => ∃ ns, w = .obj ns ∧ ms.length = ns.length ∧ ∀ m ∈ ms, ∃ x, (m.1, x) ∈ ns ∧ m.2 x)

section Objects

variable {α : Type}

def asciiUnits (t : Text) : JsString := t.map (fun c => UInt16.ofNat c.toNat)

def protoKey : JsString := asciiUnits "__proto__".toList

def arrayIndex (k : JsString) : Option ℕ :=
  let n := Nat.ofDigitChars 10 (k.map (fun u => Char.ofNat u.toNat)) 0
  if asciiUnits (Nat.toDigits 10 n) = k ∧ n < 2 ^ 32 - 1 then some n else none

def ownKeys (ms : List (JsString × α)) : List JsString :=
  let keys := ms.map Prod.fst
  (keys.filter (fun k => (arrayIndex k).isSome)).insertionSort
      (fun a b => (arrayIndex a).getD 0 ≤ (arrayIndex b).getD 0) ++
    keys.filter (fun k => (arrayIndex k).isNone)

/-- Assigning to `__proto__` calls a setter and makes no own property. -/
def assign (out : List (JsString × α)) (k : JsString) (v : α) : List (JsString × α) :=
  if k = protoKey then out
  else if k ∈ out.map Prod.fst then out.map (fun m => if m.1 = k then (k, v) else m)
  else out ++ [(k, v)]

def assignAll (ms out : List (JsString × α)) (keys : List JsString) : List (JsString × α) :=
  keys.foldl (fun out k => match ms.lookup k with
    | some v => assign out k v
    | none => out) out

def sortKeys (keys : List JsString) : List JsString :=
  keys.insertionSort (fun a b => a.map UInt16.toNat ≤ b.map UInt16.toNat)

def rebuild (ms : List (JsString × α)) : List (JsString × α) := assignAll ms [] (sortKeys (ownKeys ms))

def enumerate (ms : List (JsString × α)) : List (JsString × α) :=
  (ownKeys ms).filterMap (fun k => (ms.lookup k).map (Prod.mk k))

end Objects

def sortValue : Value → Value := Tree.fold .leaf .arr (fun ms => .obj (rebuild ms))

def scalarText : Scalar → Text
  | .null => "null".toList
  | .bool true => "true".toList
  | .bool false => "false".toList
  | .num x => toText x
  | .str s => quote s

def isWordChar (c : Char) : Bool := c.isAlpha || isNumberChar c

lemma word_or_string (a : Scalar) :
    (∃ s, a = .str s) ∨ scalarText a ≠ [] ∧ ∀ c ∈ scalarText a, isWordChar c = true := by
  cases a with
  | null => exact Or.inr ⟨by decide, List.all_eq_true.mp rfl⟩
  | bool b => exact Or.inr ⟨by cases b <;> decide, List.all_eq_true.mp (by cases b <;> rfl)⟩
  | num x =>
    refine Or.inr ⟨toText_ne_nil x, ?_⟩
    intro c hc
    rw [isWordChar, toText_chars x c hc, Bool.or_true]
  | str s => exact Or.inl ⟨s, rfl⟩

lemma word_append {t u r s : Text} (ht : ∀ c ∈ t, isWordChar c = true) (hu : ∀ c ∈ u, isWordChar c = true)
    (hr : Ends r) (hs : Ends s) (h : t ++ r = u ++ s) : t = u ∧ r = s := by
  have hstop : ∀ r, Ends r → r.takeWhile isWordChar = [] := by
    intro r hr
    cases r with
    | nil => rfl
    | cons c r =>
      rcases hr c r rfl with rfl | rfl | rfl <;> rfl
  have htw := congrArg (List.takeWhile isWordChar) h
  rw [List.takeWhile_append_of_pos ht, List.takeWhile_append_of_pos hu, hstop r hr, hstop s hs, List.append_nil,
    List.append_nil] at htw
  subst htw
  exact ⟨rfl, List.append_cancel_left h⟩

lemma num_ne_word {x : JsNumber} {c : Char} {t : Text} (hc : isNumberChar c = false) : toText x ≠ c :: t := by
  intro h
  have := toText_chars x c (by simp [h])
  simp [hc] at this

lemma scalarText_injective {a b : Scalar} (ha : ∀ s, a ≠ .str s) (hb : ∀ s, b ≠ .str s)
    (h : scalarText a = scalarText b) : a = b := by
  cases a with
  | null =>
    cases b with
    | null => rfl
    | bool b => cases b <;> simp [scalarText] at h
    | num x => exact absurd h.symm (num_ne_word (by decide))
    | str s => exact absurd rfl (hb s)
  | bool c =>
    cases c <;> cases b with
    | null => simp [scalarText] at h
    | bool d => cases d <;> simp_all [scalarText]
    | num x => exact absurd h.symm (num_ne_word (by decide))
    | str s => exact absurd rfl (hb s)
  | num x =>
    cases b with
    | null => exact absurd h (num_ne_word (by decide))
    | bool c => cases c <;> exact absurd h (num_ne_word (by decide))
    | num y => rw [toText_injective h]
    | str s => exact absurd rfl (hb s)
  | str s => exact absurd rfl (ha s)

lemma word_ne_quote {u : Text} (hu : ∀ c ∈ u, isWordChar c = true) (hne : u ≠ []) (r : Text) (x : JsString)
    (v : Text) : u ++ r ≠ quote x ++ v := by
  obtain ⟨c, t, rfl⟩ := List.exists_cons_of_ne_nil hne
  intro he
  simp only [quote, List.cons_append, List.cons.injEq] at he
  have hc := hu c (by simp)
  rw [he.1] at hc
  exact absurd hc (by decide)

lemma scalarText_unique {a b : Scalar} {r s : Text} (hr : Ends r) (hs : Ends s)
    (h : scalarText a ++ r = scalarText b ++ s) : a = b ∧ r = s := by
  rcases word_or_string a with ⟨x, rfl⟩ | ⟨ha, hac⟩
  · rcases word_or_string b with ⟨y, rfl⟩ | ⟨hb, hbc⟩
    · obtain ⟨rfl, hh⟩ := quote_unique h
      exact ⟨rfl, hh⟩
    · exact absurd h.symm (word_ne_quote hbc hb s x r)
  · rcases word_or_string b with ⟨y, rfl⟩ | ⟨hb, hbc⟩
    · exact absurd h (word_ne_quote hac ha r y s)
    · obtain ⟨ht, hh⟩ := word_append hac hbc hr hs h
      refine ⟨scalarText_injective ?_ ?_ ht, hh⟩
      · rintro x rfl
        exact absurd (hac '"' (by simp [scalarText, quote])) (by decide)
      · rintro x rfl
        exact absurd (hbc '"' (by simp [scalarText, quote])) (by decide)

def code : Code JsString Scalar where
  leaf := scalarText
  key := quote

lemma code_lawful : code.Lawful where
  leaf_unique := scalarText_unique
  leaf_head := by
    intro a
    rcases word_or_string a with ⟨x, rfl⟩ | ⟨ha, hac⟩
    · exact ⟨'"', _, rfl, by decide, by decide, by decide⟩
    · obtain ⟨c, t, ht⟩ := List.exists_cons_of_ne_nil ha
      have hc := hac c (by simp [ht])
      refine ⟨c, t, ht, ?_, ?_, ?_⟩ <;>
      · rintro rfl
        exact absurd hc (by decide)
  key_unique := by
    intro k l r s h
    obtain ⟨hk, hh⟩ := quote_unique h
    exact ⟨hk, by simpa using hh⟩
  key_head := fun k => ⟨_, rfl⟩

def stringify (v : Value) : Text := encode code (Tree.fold .leaf .arr (fun ms => .obj (enumerate ms)) v)

def canonicalizeArguments (input : Value) : Text := stringify (sortValue input)

def computeArgumentDigest {D : Type} (sha256 : Text → D) (canonical : Text) : D := sha256 canonical

end Breeze.Approval.Canonicalize
