import Breeze.Lib.GoJson
import Breeze.Lib.JsonTree

/-! Reading JSON text without blanks into generic values, as Go's decoder does: strings with their escapes resolved, numbers
and literal names as their text. Reading what was written gives back the tree. -/

namespace Breeze.Lib.JsonRead

open Decimal Utf8 GoJson JsonText List

inductive Atom where
  | word (t : Text)
  | str (t : Text)

abbrev Generic := Tree Text Atom

def takeWord : List Rune → Text × List Rune
  | .ok c :: rs => if isWordChar c then (c :: (takeWord rs).1, (takeWord rs).2) else ([], .ok c :: rs)
  | rs => ([], rs)

def readWord (rs : List Rune) : Option (Generic × List Rune) :=
  match takeWord rs with
  | ([], _) => none
  | (t, rest) => some (.leaf (.word t), rest)

mutual

def readValue : ℕ → List Rune → Option (Generic × List Rune)
  | 0, _ => none
  | _ + 1, .ok '[' :: .ok ']' :: rs => some (.arr [], rs)
  | n + 1, .ok '[' :: rs => (readItems n rs).map fun x => (.arr x.1, x.2)
  | _ + 1, .ok '{' :: .ok '}' :: rs => some (.obj [], rs)
  | n + 1, .ok '{' :: rs => (readMembers n rs).map fun x => (.obj x.1, x.2)
  | _ + 1, .ok '"' :: rs => (unquote (.ok '"' :: rs)).map fun x => (.leaf (.str x.1), x.2)
  | _ + 1, rs => readWord rs

def readItems : ℕ → List Rune → Option (List Generic × List Rune)
  | 0, _ => none
  | n + 1, rs =>
    match readValue n rs with
    | some (v, .ok ',' :: rest) => push v (readItems n rest)
    | some (v, .ok ']' :: rest) => some ([v], rest)
    | _ => none

def readMembers : ℕ → List Rune → Option (List (Text × Generic) × List Rune)
  | 0, _ => none
  | n + 1, rs =>
    match unquote rs with
    | some (k, .ok ':' :: rest) =>
      match readValue n rest with
      | some (v, .ok ',' :: rest) => push (k, v) (readMembers n rest)
      | some (v, .ok '}' :: rest) => some ([(k, v)], rest)
      | _ => none
    | _ => none

end

def read (data : Bytes) : Option Generic :=
  match readValue ((runes data).length + 1) (runes data) with
  | some (v, []) => some v
  | _ => none

section Write

variable {K A : Type}

inductive ReadsAs (t : Text) : Atom → Prop
  | word (hne : t ≠ []) (hw : ∀ c ∈ t, isWordChar c = true) : ReadsAs t (.word t)
  | str (u s : Text) (hq : t = '"' :: u) (hr : ∀ rs, unquote (ofText t ++ rs) = some (s, rs)) : ReadsAs t (.str s)

structure Reads (C : Code K A) (f : K → Text) (g : A → Atom) : Prop where
  leaf : ∀ a, ReadsAs (C.leaf a) (g a)
  key : ∀ k, ReadsAs (C.key k) (.str (f k))

def Stops (rs : List Rune) : Prop := ∀ c rest, rs = .ok c :: rest → isWordChar c = false

variable {t : Text} {a : Atom} {n : ℕ}

lemma takeWord_append (ht : ∀ c ∈ t, isWordChar c = true) {rs : List Rune} (hrs : Stops rs) :
    takeWord (ofText t ++ rs) = (t, rs) := by
  induction t with
  | nil =>
    cases rs with
    | nil => rfl
    | cons r rs =>
      cases r with
      | bad b => rfl
      | ok c => simp [takeWord, hrs c rs rfl]
  | cons c t ih =>
    have hrest := ih fun e he => ht e (mem_cons_of_mem _ he)
    simp [takeWord, ht c mem_cons_self, hrest]

lemma stops_cons {c : Char} (h : isWordChar c = false) (rs : List Rune) : Stops (.ok c :: rs) := by
  rintro d rest heq
  cases heq
  exact h

variable {C : Code K A} {f : K → Text} {g : A → Atom}

lemma ReadsAs.head (h : ReadsAs t a) : ∃ c u, t = c :: u ∧ c ≠ '[' ∧ c ≠ '{' ∧ c ≠ ']' := by
  cases h with
  | word hne hw =>
    obtain ⟨c, u, rfl⟩ := exists_cons_of_ne_nil hne
    have hc := hw c mem_cons_self
    refine ⟨c, u, rfl, ?_⟩
    refine ⟨?_, ?_, ?_⟩ <;> (rintro rfl; exact absurd hc (by decide))
  | str u s hq hr => exact ⟨'"', u, hq, by decide, by decide, by decide⟩

lemma readValue_leaf (h : ReadsAs t a) {rs : List Rune} (hrs : Stops rs) (fuel : ℕ) :
    readValue (fuel + 1) (ofText t ++ rs) = some (.leaf a, rs) := by
  obtain ⟨c, u, hc, h₁, h₂, -⟩ := h.head
  cases h with
  | word hne hw =>
    have hq : c ≠ '"' := by
      rintro rfl
      exact absurd (hw '"' (hc ▸ mem_cons_self)) (by decide)
    have hword := takeWord_append hw hrs
    subst hc
    rw [ofText_cons, cons_append] at hword ⊢
    rw [readValue]
    · simp [readWord, hword]
    all_goals simp_all
  | str u' s hq hr =>
    have hr := hr rs
    subst hq
    rw [ofText_cons, cons_append] at hr ⊢
    rw [readValue, hr]
    rfl

lemma Reads.unquote_key (h : Reads C f g) (k : K) (rs : List Rune) : unquote (ofText (C.key k) ++ rs) = some (f k, rs) := by
  have hk := h.key k
  generalize C.key k = t at hk ⊢
  cases hk with
  | str u s hq hr => exact hr rs

lemma Reads.key_quoted (h : Reads C f g) (k : K) : ∃ u, C.key k = '"' :: u := by
  have hk := h.key k
  generalize C.key k = t at hk ⊢
  cases hk with
  | str u s hq hr => exact ⟨u, hq⟩

def Back (C : Code K A) (f : K → Text) (g : A → Atom) (v : Tree K A) : Prop :=
  ∀ fuel rs, Stops rs → (JsonText.encode C v).length < fuel →
    readValue fuel (ofText (JsonText.encode C v) ++ rs) = some (Tree.relabel f g v, rs)

lemma readItems_encode {v : Tree K A} {items : List (Tree K A)} (hall : ∀ w ∈ v :: items, Back C f g w)
    (hf : (JsonText.encode C v ++ encodeItemTail C items).length < n) (rs : List Rune) :
    readItems n (ofText (JsonText.encode C v ++ encodeItemTail C items) ++ rs) = some ((v :: items).map (Tree.relabel f g), rs) := by
  induction items generalizing v n with
  | nil =>
    obtain ⟨k, rfl⟩ : ∃ k, n = k + 1 := ⟨n - 1, by omega⟩
    simp only [encodeItemTail, length_append, length_cons, length_nil] at hf
    have hv := hall v mem_cons_self k (.ok ']' :: rs) (stops_cons (by decide) rs) (by omega)
    rw [readItems, ofText_append, append_assoc]
    simp only [encodeItemTail, ofText_cons, ofText_nil, cons_append, nil_append, hv]
    rfl
  | cons w items ih =>
    obtain ⟨k, rfl⟩ : ∃ k, n = k + 1 := ⟨n - 1, by omega⟩
    simp only [encodeItemTail, length_append, length_cons] at hf
    have hv := hall v mem_cons_self k (.ok ',' :: (ofText (JsonText.encode C w ++ encodeItemTail C items) ++ rs))
      (stops_cons (by decide) _) (by omega)
    have hrest := ih (v := w) (n := k) (fun x hx => hall x (mem_cons_of_mem _ hx)) (by simp; omega)
    rw [readItems, ofText_append, append_assoc]
    simp only [encodeItemTail, ofText_cons, cons_append, hv, hrest]
    rfl

lemma readMembers_encode (h : Reads C f g) {m : K × Tree K A} {ms : List (K × Tree K A)} (hall : ∀ w ∈ m :: ms, Back C f g w.2) (hf : (C.key m.1 ++ ':' :: (JsonText.encode C m.2 ++ encodeMemberTail C ms)).length < n) (rs : List Rune) :
    readMembers n (ofText (C.key m.1 ++ ':' :: (JsonText.encode C m.2 ++ encodeMemberTail C ms)) ++ rs) =
      some ((m :: ms).map (fun m => (f m.1, Tree.relabel f g m.2)), rs) := by
  induction ms generalizing m n with
  | nil =>
    obtain ⟨k, rfl⟩ : ∃ k, n = k + 1 := ⟨n - 1, by omega⟩
    simp only [encodeMemberTail, length_append, length_cons, length_nil] at hf
    have hv := hall m mem_cons_self k (.ok '}' :: rs) (stops_cons (by decide) rs) (by omega)
    rw [readMembers, ofText_append, append_assoc, h.unquote_key]
    simp only [encodeMemberTail, ofText_append, ofText_cons, ofText_nil, cons_append, nil_append, append_assoc, hv]
    rfl
  | cons w ms ih =>
    obtain ⟨k, rfl⟩ : ∃ k, n = k + 1 := ⟨n - 1, by omega⟩
    simp only [encodeMemberTail, length_append, length_cons] at hf
    have hv := hall m mem_cons_self k
      (.ok ',' :: (ofText (C.key w.1 ++ ':' :: (JsonText.encode C w.2 ++ encodeMemberTail C ms)) ++ rs))
      (stops_cons (by decide) _) (by omega)
    have hrest := ih (m := w) (n := k) (fun x hx => hall x (mem_cons_of_mem _ hx)) (by simp; omega)
    rw [readMembers, ofText_append, append_assoc, h.unquote_key]
    simp only [encodeMemberTail, ofText_append, ofText_cons, cons_append, append_assoc] at hv hrest ⊢
    simp only [hv, hrest]
    rfl

theorem read_back (h : Reads C f g) (v : Tree K A) : Back C f g v := by
  induction v using Tree.ind with
  | leaf a =>
    intro fuel rs hrs hf
    obtain ⟨n, rfl⟩ : ∃ n, fuel = n + 1 := ⟨fuel - 1, by omega⟩
    rw [Tree.relabel_leaf]
    simpa [JsonText.encode] using readValue_leaf (h.leaf a) hrs n
  | arr items ih =>
    intro fuel rs hrs hf
    obtain ⟨n, rfl⟩ : ∃ n, fuel = n + 1 := ⟨fuel - 1, by omega⟩
    cases items with
    | nil => simp [JsonText.encode, encodeItems, readValue]
    | cons v items =>
      simp only [JsonText.encode, encodeItems, length_cons] at hf
      have hitems := readItems_encode ih (n := n) (by omega) rs
      obtain ⟨c, u, hc, hne⟩ := encode_head C (fun a => (h.leaf a).head) v
      simp only [JsonText.encode, encodeItems, ofText_cons, cons_append, Tree.relabel_arr]
      rw [readValue, hitems]
      · rfl
      · intro rest heq
        simp [hc] at heq
        exact hne heq.1
  | obj ms ih =>
    intro fuel rs hrs hf
    obtain ⟨n, rfl⟩ : ∃ n, fuel = n + 1 := ⟨fuel - 1, by omega⟩
    cases ms with
    | nil => simp [JsonText.encode, encodeMembers, readValue]
    | cons m ms =>
      simp only [JsonText.encode, encodeMembers, length_cons] at hf
      have hmembers := readMembers_encode h ih (n := n) (by omega) rs
      obtain ⟨u, hc⟩ := h.key_quoted m.1
      simp only [JsonText.encode, encodeMembers, ofText_cons, cons_append, Tree.relabel_obj]
      rw [readValue, hmembers]
      · rfl
      · intro rest heq
        simp [hc] at heq

theorem read_encode (h : Reads C f g) (v : Tree K A) : read (Utf8.encode (JsonText.encode C v)) = some (Tree.relabel f g v) := by
  have hruns : runes (Utf8.encode (JsonText.encode C v)) = ofText (JsonText.encode C v) := runes_encode _
  have hv := read_back h v ((ofText (JsonText.encode C v)).length + 1) [] nofun (by simp [ofText])
  rw [append_nil] at hv
  rw [read, hruns, hv]

end Write

end Breeze.Lib.JsonRead
