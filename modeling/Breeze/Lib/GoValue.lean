import Breeze.Lib.IntegerText
import Breeze.Lib.JsonRead
import Breeze.Lib.QuotedText

/-! Go values written by `json.Marshal`, read back as generic values, and written again by an encoder without HTML
escaping. -/

namespace Breeze.Lib.GoValue

open Decimal JsonText QuotedText IntegerText
open JsonRead (Atom Generic ReadsAs Reads)

inductive Scalar where
  | null
  | bool (b : Bool)
  | int (n : ℤ)
  | str (t : Text)

def literalText : Bool → Text
  | true => "true".toList
  | false => "false".toList

def marshalCode : Code Text Scalar where
  leaf
    | .null => "null".toList
    | .bool b => literalText b
    | .int n => intText n
    | .str t => GoJson.quote (Utf8.encode t)
  key k := GoJson.quote (Utf8.encode k)

def encoderCode : Code Text Atom where
  leaf
    | .word t => t
    | .str t => plainQuote t
  key := plainQuote

def byteOrder (k : Text) : List ℕ := (Utf8.encode k).map UInt8.toNat

def atom : Scalar → Atom
  | .null => .word "null".toList
  | .bool b => .word (literalText b)
  | .int n => .word (intText n)
  | .str t => .str t

lemma byteOrder_injective {k l : Text} (h : byteOrder k = byteOrder l) : k = l :=
  Utf8.encode_injective (List.map_injective_iff.mpr (fun _ _ hab => UInt8.toNat_inj.mp hab) h)

lemma intText_word (n : ℤ) : ∀ c ∈ intText n, GoJson.isWordChar c = true := by
  intro c hc
  rcases List.mem_append.mp hc with hc | hc
  · split at hc
    · rw [List.mem_singleton.mp hc]
      rfl
    · cases hc
  · have hd := NumberText.toDigits_digits _ c hc
    simp [GoJson.isWordChar, Char.isAlphanum, hd]

lemma readsAs_quote (t : Text) : ReadsAs (GoJson.quote (Utf8.encode t)) (.str t) := by
  refine .str _ t rfl fun rs => ?_
  rw [GoJson.unquote_quote, Utf8.toText_encode]

theorem marshal_reads : Reads marshalCode id atom where
  leaf a := by
    cases a with
    | null => exact .word (by decide) (List.all_eq_true.mp rfl)
    | bool b => exact .word (by cases b <;> decide) (List.all_eq_true.mp (by cases b <;> rfl))
    | int n => exact .word (fun h => Nat.toDigits_ne_nil (List.append_eq_nil_iff.mp h).2) (intText_word n)
    | str t => exact readsAs_quote t
  key k := readsAs_quote k

end Breeze.Lib.GoValue
