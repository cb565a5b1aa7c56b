import Breeze.Lib.JsonText
import Breeze.Lib.Quoted
import Breeze.Lib.Utf8

/-! JSON texts as Go's encoding/json writes them, and reading them back: quoted strings, and objects whose
values are kept as raw texts. -/

namespace Breeze.Lib.GoJson

open Decimal Utf8 List

def escape (n : ℕ) : Text := '\\' :: 'u' :: Quoted.hex4 n

def shortLetter (c : Char) : Option Char :=
  if c = '"' then some '"'
  else if c = '\\' then some '\\'
  else if c.toNat = 0x08 then some 'b'
  else if c.toNat = 0x0C then some 'f'
  else if c.toNat = 0x0A then some 'n'
  else if c.toNat = 0x0D then some 'r'
  else if c.toNat = 0x09 then some 't'
  else none

-- HTML characters and the two line separators are escaped by default
def isEscaped (c : Char) : Bool :=
  decide (c.toNat < 0x20 ∨ c = '<' ∨ c = '>' ∨ c = '&' ∨ c.toNat = 0x2028 ∨ c.toNat = 0x2029)

def quoteRune : Rune → Text
  | .bad _ => escape 0xFFFD
  | .ok c =>
    match shortLetter c with
    | some l => ['\\', l]
    | none => if isEscaped c then escape c.toNat else [c]

def quoteBody (s : Bytes) : Text := (runes s).flatMap quoteRune

def quote (s : Bytes) : Text := '"' :: (quoteBody s ++ ['"'])

def hexDigit (c : Char) : Option ℕ :=
  if c.isDigit then some (c.toNat - 48)
  else if 'a' ≤ c ∧ c ≤ 'f' then some (c.toNat - 87)
  else if 'A' ≤ c ∧ c ≤ 'F' then some (c.toNat - 55)
  else none

def ofShortLetter (c : Char) : Option Char :=
  if c = '"' ∨ c = '\\' ∨ c = '/' then some c
  else if c = 'b' then some (Char.ofNat 0x08)
  else if c = 'f' then some (Char.ofNat 0x0C)
  else if c = 'n' then some (Char.ofNat 0x0A)
  else if c = 'r' then some (Char.ofNat 0x0D)
  else if c = 't' then some (Char.ofNat 0x09)
  else none

inductive Token where
  | char (c : Char)
  | unit (u : ℕ)

inductive Lexing where
  | plain
  | esc
  | hex (digits acc : ℕ)

def push {A B : Type} (a : A) (x : Option (List A × B)) : Option (List A × B) := x.map (fun y => (a :: y.1, y.2))

def lex : Lexing → List Rune → Option (List Token × List Rune)
  | _, [] => none
  | .plain, .bad _ :: rs => push (.char replacement) (lex .plain rs)
  | .plain, .ok c :: rs =>
    if c = '"' then some ([], rs)
    else if c = '\\' then lex .esc rs
    else if c.toNat < 0x20 then none
    else push (.char c) (lex .plain rs)
  | .esc, .ok c :: rs =>
    if c = 'u' then lex (.hex 3 0) rs
    else
      match ofShortLetter c with
      | some l => push (.char l) (lex .plain rs)
      | none => none
  | .hex n acc, .ok c :: rs =>
    match hexDigit c, n with
    | none, _ => none
    | some d, 0 => push (.unit (acc * 16 + d)) (lex .plain rs)
    | some d, n + 1 => lex (.hex n (acc * 16 + d)) rs
  | _, .bad _ :: _ => none

def isSurrogate (u : ℕ) : Bool := decide (0xD800 ≤ u ∧ u ≤ 0xDFFF)

def single (u : ℕ) : Char := if isSurrogate u then replacement else Char.ofNat u

-- half of a surrogate pair without its other half reads as U+FFFD
def join : List Token → Text
  | [] => []
  | .char c :: ts => c :: join ts
  | .unit u :: .unit v :: ts =>
    if 0xD800 ≤ u ∧ u ≤ 0xDBFF ∧ 0xDC00 ≤ v ∧ v ≤ 0xDFFF then
      Char.ofNat (0x10000 + (u - 0xD800) * 0x400 + (v - 0xDC00)) :: join ts
    else single u :: join (.unit v :: ts)
  | .unit u :: ts => single u :: join ts

def unquote : List Rune → Option (Text × List Rune)
  | .ok '"' :: rs => (lex .plain rs).map (fun x => (join x.1, x.2))
  | _ => none

section Strings

def ofText (t : Text) : List Rune := t.map .ok

@[simp] lemma ofText_nil : ofText [] = [] := rfl

@[simp] lemma ofText_cons (c : Char) (t : Text) : ofText (c :: t) = .ok c :: ofText t := rfl

@[simp] lemma ofText_append (t u : Text) : ofText (t ++ u) = ofText t ++ ofText u := by
  simp [ofText]

def seen : Rune → Char
  | .ok c => c
  | .bad _ => replacement

def tokenOf : Rune → Token
  | .bad _ => .unit 0xFFFD
  | .ok c =>
    match shortLetter c with
    | some _ => .char c
    | none => if isEscaped c then .unit c.toNat else .char c

variable {n : ℕ} {c : Char} {r : Rune}

lemma hexDigit_digitChar (h : n < 16) : hexDigit n.digitChar = some n := by
  have hall : ∀ n < 16, hexDigit n.digitChar = some n := by decide
  exact hall n h

lemma lex_escape (h : n < 65536) (rs : List Rune) : lex .plain (ofText (escape n) ++ rs) = push (.unit n) (lex .plain rs) := by
  have hd (k : ℕ) : hexDigit (k % 16).digitChar = some (k % 16) := hexDigit_digitChar (Nat.mod_lt _ (by decide))
  have hn : (((n / 4096 % 16) * 16 + n / 256 % 16) * 16 + n / 16 % 16) * 16 + n % 16 = n := by omega
  simp [escape, Quoted.hex4, lex, hd, hn]

lemma ofShortLetter_shortLetter {l : Char} (h : shortLetter c = some l) : ofShortLetter l = some c ∧ l ≠ 'u' := by
  have hc (n : ℕ) (hn : c.toNat = n) : Char.ofNat n = c := by rw [← hn, Char.ofNat_toNat]
  rw [shortLetter] at h
  split_ifs at h with h₁ h₂ h₃ h₄ h₅ h₆ h₇ <;> cases h
  · simp [ofShortLetter, h₁]
  · simp [ofShortLetter, h₂]
  · simpa [ofShortLetter] using hc _ h₃
  · simpa [ofShortLetter] using hc _ h₄
  · simpa [ofShortLetter] using hc _ h₅
  · simpa [ofShortLetter] using hc _ h₆
  · simpa [ofShortLetter] using hc _ h₇

lemma shortLetter_none (h : shortLetter c = none) : c ≠ '"' ∧ c ≠ '\\' := by
  constructor <;> rintro rfl <;> simp [shortLetter] at h

lemma lt_of_isEscaped (h : isEscaped c = true) : c.toNat < 0x2030 := by
  simp only [isEscaped, decide_eq_true_eq] at h
  rcases h with h | rfl | rfl | rfl | h | h
  all_goals first | omega | decide

lemma lex_quoteRune (r : Rune) (rs : List Rune) :
    lex .plain (ofText (quoteRune r) ++ rs) = push (tokenOf r) (lex .plain rs) := by
  cases r with
  | bad b => exact lex_escape (by decide) rs
  | ok c =>
    simp only [quoteRune, tokenOf]
    cases hl : shortLetter c with
    | some l =>
      obtain ⟨ho, hu⟩ := ofShortLetter_shortLetter hl
      simp [lex, hu, ho]
    | none =>
      obtain ⟨hq, hb⟩ := shortLetter_none hl
      cases he : isEscaped c with
      | true =>
        have hlt := lt_of_isEscaped he
        simpa using lex_escape (by omega) rs
      | false =>
        have hge : ¬ c.toNat < 0x20 := by
          simp only [isEscaped, decide_eq_false_iff_not, not_or] at he
          exact he.1
        simp [lex, hq, hb, hge]

lemma lex_quoteBody (s : Bytes) (rs : List Rune) :
    lex .plain (ofText (quoteBody s) ++ .ok '"' :: rs) = some ((runes s).map tokenOf, rs) := by
  rw [quoteBody]
  induction runes s with
  | nil => simp [lex]
  | cons r l ih =>
    rw [flatMap_cons, ofText_append, append_assoc, lex_quoteRune, ih]
    rfl

lemma single_of_lt (h : c.toNat < 0x2030) : single c.toNat = c := by
  have hs : isSurrogate c.toNat = false := decide_eq_false (by omega)
  rw [single, hs]
  exact Char.ofNat_toNat c

lemma not_surrogate_of_tokenOf {u : ℕ} (h : tokenOf r = .unit u) : single u = seen r ∧ ¬ (0xD800 ≤ u ∧ u ≤ 0xDBFF) := by
  cases r with
  | bad b =>
    cases h
    exact ⟨by simp [single, isSurrogate, seen, replacement], by omega⟩
  | ok c =>
    simp only [tokenOf] at h
    split at h
    · cases h
    · split at h
      · cases h
        have hlt := lt_of_isEscaped (by assumption)
        exact ⟨single_of_lt hlt, by omega⟩
      · cases h

lemma seen_of_tokenOf (h : tokenOf r = .char c) : seen r = c := by
  cases r with
  | bad b => cases h
  | ok d =>
    simp only [tokenOf] at h
    split at h
    · exact Token.char.inj h
    · split at h
      · cases h
      · exact Token.char.inj h

lemma join_tokens (l : List Rune) : join (l.map tokenOf) = l.map seen := by
  induction l with
  | nil => rfl
  | cons r l ih =>
    rw [map_cons, map_cons]
    cases hr : tokenOf r with
    | char c => rw [join, ih, seen_of_tokenOf hr]
    | unit u =>
      obtain ⟨hs, hu⟩ := not_surrogate_of_tokenOf hr
      cases hl : l.map tokenOf with
      | nil => rw [hl] at ih; simp [join, hs, ← ih]
      | cons t ts =>
        rw [hl] at ih
        cases t with
        | char c => simp [join, hs, ← ih]
        | unit v =>
          rw [join, if_neg (fun h => hu ⟨h.1, h.2.1⟩), ih, hs]

lemma toText_eq (s : Bytes) : toText s = (runes s).map seen := by
  rw [toText]
  refine map_congr_left fun r _ => ?_
  cases r <;> rfl

theorem unquote_quote (s : Bytes) (rs : List Rune) : unquote (ofText (quote s) ++ rs) = some (toText s, rs) := by
  simp [quote, unquote, lex_quoteBody, join_tokens, toText_eq]

end Strings

def isSpace (r : Rune) : Bool := r == .ok ' ' || r == .ok '\t' || r == .ok '\n' || r == .ok '\r'

def skip (rs : List Rune) : List Rune := rs.dropWhile isSpace

inductive Scanning where
  | value
  | str
  | esc

def scan : ℕ → Scanning → List Rune → Option (List Rune × List Rune)
  | _, _, [] => none
  | d, .esc, r :: rs => push r (scan d .str rs)
  | d, .str, r :: rs =>
    if r = .ok '"' then push r (scan d .value rs)
    else if r = .ok '\\' then push r (scan d .esc rs)
    else push r (scan d .str rs)
  | d, .value, r :: rs =>
    if r = .ok '"' then push r (scan d .str rs)
    else if r = .ok '[' ∨ r = .ok '{' then push r (scan (d + 1) .value rs)
    else
      match d with
      | 0 =>
        if isSpace r ∨ r = .ok ',' ∨ r = .ok ']' ∨ r = .ok '}' then some ([], r :: rs)
        else push r (scan 0 .value rs)
      | d + 1 =>
        if r = .ok ']' ∨ r = .ok '}' then push r (scan d .value rs)
        else push r (scan (d + 1) .value rs)

def entry (rs : List Rune) : Option ((Text × List Rune) × List Rune) :=
  match unquote (skip rs) with
  | none => none
  | some (k, rs) =>
    match skip rs with
    | .ok ':' :: rs => (scan 0 .value (skip rs)).map (fun x => ((k, x.1), skip x.2))
    | _ => none

def entries : ℕ → List Rune → Option (List (Text × List Rune))
  | 0, _ => none
  | fuel + 1, rs =>
    match entry rs with
    | some (e, .ok ',' :: rest) => (entries fuel rest).map (e :: ·)
    | some (e, .ok '}' :: rest) => if skip rest = [] then some [e] else none
    | _ => none

def readObject (rs : List Rune) : Option (List (Text × List Rune)) :=
  match skip rs with
  | .ok '{' :: rs =>
    match skip rs with
    | .ok '}' :: rest => if skip rest = [] then some [] else none
    | _ => entries rs.length rs
  | _ => none

def writeMembers : List (Bytes × Text) → Text
  | [] => []
  | [(k, v)] => quote k ++ ':' :: v
  | (k, v) :: ms => quote k ++ ':' :: (v ++ ',' :: writeMembers ms)

def writeObject (ms : List (Bytes × Text)) : Text := '{' :: (writeMembers ms ++ ['}'])

section Objects

def prepend (l : List Rune) (x : Option (List Rune × List Rune)) : Option (List Rune × List Rune) :=
  x.map (fun y => (l ++ y.1, y.2))

@[simp] lemma prepend_nil (x : Option (List Rune × List Rune)) : prepend [] x = x := by
  simp [prepend]

@[simp] lemma prepend_some (l a b : List Rune) : prepend l (some (a, b)) = some (l ++ a, b) := rfl

lemma prepend_prepend (l m : List Rune) (x : Option (List Rune × List Rune)) :
    prepend l (prepend m x) = prepend (l ++ m) x := by
  simp [prepend, Function.comp_def]

lemma push_eq (r : Rune) (x : Option (List Rune × List Rune)) : push r x = prepend [r] x := rfl

lemma skip_cons {r : Rune} (h : isSpace r = false) (rs : List Rune) : skip (r :: rs) = r :: rs := by
  simp [skip, h]

structure Raw (t : Text) : Prop where
  head : ∃ c u, t = c :: u ∧ isSpace (.ok c) = false
  scan : ∀ d rs, scan d .value (ofText t ++ rs) = prepend (ofText t) (scan d .value rs)

def Inner (t : Text) : Prop := ∀ d rs, scan d .str (ofText t ++ rs) = prepend (ofText t) (scan d .str rs)

lemma Inner.append {t u : Text} (ht : Inner t) (hu : Inner u) : Inner (t ++ u) := by
  intro d rs
  rw [ofText_append, append_assoc, ht, hu, prepend_prepend]

variable {c : Char} {ms : List (Bytes × Text)}

lemma inner_char (hq : c ≠ '"') (hb : c ≠ '\\') : Inner [c] := by
  intro d rs
  simp [scan, hq, hb, push_eq]

lemma inner_escape : Inner ['\\', c] := by
  intro d rs
  simp [scan, push_eq, prepend_prepend]

lemma inner_digit (n : ℕ) : Inner [(n % 16).digitChar] := by
  have hall : ∀ n < 16, n.digitChar ≠ '"' ∧ n.digitChar ≠ '\\' := by decide
  have h := hall (n % 16) (Nat.mod_lt _ (by decide))
  exact inner_char h.1 h.2

lemma inner_quoteRune (r : Rune) : Inner (quoteRune r) := by
  have hesc (n : ℕ) : Inner (escape n) :=
    inner_escape.append ((inner_digit _).append ((inner_digit _).append ((inner_digit _).append (inner_digit n))))
  cases r with
  | bad b => exact hesc _
  | ok c =>
    simp only [quoteRune]
    cases hl : shortLetter c with
    | some l => exact inner_escape
    | none =>
      obtain ⟨hq, hb⟩ := shortLetter_none hl
      cases isEscaped c with
      | true => exact hesc _
      | false => exact inner_char hq hb

lemma inner_quoteBody (s : Bytes) : Inner (quoteBody s) := by
  rw [quoteBody]
  induction runes s with
  | nil =>
    intro d rs
    simp
  | cons r l ih => exact (inner_quoteRune r).append ih

theorem raw_quote (s : Bytes) : Raw (quote s) where
  head := ⟨'"', quoteBody s ++ ['"'], rfl, by decide⟩
  scan d rs := by
    have h := inner_quoteBody s d (.ok '"' :: rs)
    simp only [quote, ofText_cons, ofText_append, ofText_nil, cons_append, append_assoc, nil_append]
    simp [scan, h, push_eq, prepend_prepend]

def isWordChar (c : Char) : Bool := c.isAlphanum || c == '+' || c == '-' || c == '.'

lemma scan_word (h : isWordChar c = true) (d : ℕ) (rs : List Rune) :
    scan d .value (.ok c :: rs) = prepend [.ok c] (scan d .value rs) := by
  have hne {e : Char} (he : isWordChar e = false) : c ≠ e := by
    rintro rfl
    rw [h] at he
    cases he
  have hs : isSpace (.ok c) = false := by
    simp [isSpace, hne (e := ' ') (by decide), hne (e := '\t') (by decide), hne (e := '\n') (by decide),
      hne (e := '\r') (by decide)]
  cases d <;> simp [scan, hs, push_eq, hne (e := '"') (by decide), hne (e := '[') (by decide), hne (e := '{') (by decide),
    hne (e := ',') (by decide), hne (e := ']') (by decide), hne (e := '}') (by decide)]

theorem raw_word {t : Text} (hne : t ≠ []) (ht : ∀ c ∈ t, isWordChar c = true) : Raw t := by
  constructor
  · obtain ⟨c, u, rfl⟩ := exists_cons_of_ne_nil hne
    have hc := ht c (by simp)
    refine ⟨c, u, rfl, ?_⟩
    by_contra hs
    simp only [isSpace, Bool.not_eq_false, Bool.or_eq_true, beq_iff_eq, Rune.ok.injEq] at hs
    rcases hs with ((rfl | rfl) | rfl) | rfl <;> exact absurd hc (by decide)
  · intro d rs
    clear hne
    induction t with
    | nil => simp
    | cons c t ih =>
      rw [ofText_cons, cons_append, scan_word (ht c (by simp)), ih (fun e he => ht e (by simp [he])), prepend_prepend]
      rfl

lemma entry_member (k : Bytes) {v : Text} (hv : Raw v) (hc : c = ',' ∨ c = '}') (rs : List Rune) :
    entry (ofText (quote k ++ ':' :: v) ++ .ok c :: rs) = some ((toText k, ofText v), .ok c :: rs) := by
  have hq : skip (ofText (quote k ++ ':' :: v) ++ .ok c :: rs) = ofText (quote k) ++ .ok ':' :: (ofText v ++ .ok c :: rs) := by
    rw [ofText_append, append_assoc]
    exact skip_cons (by decide) _
  have hend : scan 0 .value (.ok c :: rs) = some ([], .ok c :: rs) ∧ skip (.ok c :: rs) = .ok c :: rs := by
    rcases hc with rfl | rfl <;> simp [scan, skip, isSpace]
  have hskip : skip (ofText v ++ .ok c :: rs) = ofText v ++ .ok c :: rs := by
    obtain ⟨e, u, rfl, he⟩ := hv.head
    exact skip_cons he _
  have hval : scan 0 .value (ofText v ++ .ok c :: rs) = some (ofText v, .ok c :: rs) := by
    rw [hv.scan, hend.1, prepend_some, append_nil]
  have hcolon (l : List Rune) : skip (.ok ':' :: l) = .ok ':' :: l := skip_cons (by decide) l
  rw [entry, hq, unquote_quote]
  simp [hcolon, hskip, hval, hend.2]

lemma entries_members (hne : ms ≠ []) (hms : ∀ m ∈ ms, Raw m.2) {fuel : ℕ}
    (hf : ms.length ≤ fuel) :
    entries fuel (ofText (writeMembers ms) ++ [.ok '}']) = some (ms.map (fun m => (toText m.1, ofText m.2))) := by
  induction ms generalizing fuel with
  | nil => exact absurd rfl hne
  | cons m ms ih =>
    obtain ⟨k, v⟩ := m
    cases fuel with
    | zero => simp at hf
    | succ fuel =>
      have hv : Raw v := hms (k, v) (by simp)
      cases ms with
      | nil =>
        rw [writeMembers, entries, entry_member k hv (Or.inr rfl)]
        simp [skip]
      | cons n ms =>
        have hrest := ih (by simp) (fun x hx => hms x (by simp [hx])) (by simpa using hf)
        have hsplit : ofText (writeMembers ((k, v) :: n :: ms)) ++ [.ok '}'] =
            ofText (quote k ++ ':' :: v) ++ .ok ',' :: (ofText (writeMembers (n :: ms)) ++ [.ok '}']) := by
          simp [writeMembers]
        rw [hsplit, entries, entry_member k hv (Or.inl rfl)]
        simp [hrest]

lemma length_le_writeMembers (ms : List (Bytes × Text)) : ms.length ≤ (writeMembers ms).length := by
  fun_induction writeMembers ms with
  | case1 => simp
  | case2 k v => simp [quote]
  | case3 k v ms _ ih =>
    simp only [length_cons, length_append]
    omega

theorem readObject_writeObject (hne : ms ≠ []) (hms : ∀ m ∈ ms, Raw m.2) :
    readObject (ofText (writeObject ms)) = some (ms.map (fun m => (toText m.1, ofText m.2))) := by
  have hlen := length_le_writeMembers ms
  obtain ⟨t, ht⟩ : ∃ t, writeMembers ms = '"' :: t := by
    cases ms with
    | nil => exact absurd rfl hne
    | cons m ms => cases ms <;> exact ⟨_, rfl⟩
  have hfuel : ms.length ≤ (ofText (writeMembers ms) ++ [Rune.ok '}']).length := by
    simp only [ofText, length_append, length_map]
    omega
  have hmem := entries_members hne hms hfuel
  have hopen (l : List Rune) : skip (.ok '{' :: l) = .ok '{' :: l := skip_cons (by decide) l
  have hquote (l : List Rune) : skip (.ok '"' :: l) = .ok '"' :: l := skip_cons (by decide) l
  simp only [ht, ofText_cons, cons_append, length_cons] at hmem
  simpa [writeObject, readObject, hopen, ht, hquote] using hmem

end Objects

section Values

open JsonText hiding encode

structure Word where
  text : Text
  text_ne_nil : text ≠ []
  wordChars : ∀ c ∈ text, isWordChar c = true

inductive Leaf where
  | word (w : Word)
  | str (s : Bytes)

abbrev Value := Tree Bytes Leaf

def leafText : Leaf → Text
  | .word w => w.text
  | .str s => quote s

def code : Code Bytes Leaf := ⟨leafText, quote⟩

def Closes (t : Text) : Prop := ∀ d rs, scan (d + 1) .value (ofText t ++ rs) = prepend (ofText t) (scan d .value rs)

lemma closes_bracket {c : Char} (hc : c = ']' ∨ c = '}') : Closes [c] := by
  intro d rs
  rcases hc with rfl | rfl <;> simp [scan, push_eq]

lemma Closes.separator {c : Char} (hc : c = ',' ∨ c = ':') {t : Text} (ht : Closes t) : Closes (c :: t) := by
  intro d rs
  have h := ht d rs
  rcases hc with rfl | rfl <;> simp [scan, push_eq, h, prepend_prepend]

lemma Closes.raw_append {v t : Text} (ht : Closes t) (hv : Raw v) : Closes (v ++ t) := by
  intro d rs
  rw [ofText_append, append_assoc, hv.scan, ht, prepend_prepend]

lemma raw_of_closes {c : Char} (hc : c = '[' ∨ c = '{') {t : Text} (ht : Closes t) : Raw (c :: t) where
  head := ⟨c, t, rfl, by rcases hc with rfl | rfl <;> decide⟩
  scan d rs := by
    have h := ht d rs
    rcases hc with rfl | rfl <;> simp [scan, push_eq, h, prepend_prepend]

lemma closes_itemTail {items : List Value} (h : ∀ v ∈ items, Raw (JsonText.encode code v)) :
    Closes (encodeItemTail code items) := by
  induction items with
  | nil => exact closes_bracket (Or.inl rfl)
  | cons v items ih =>
    have ht := ih (fun w hw => h w (by simp [hw]))
    exact (ht.raw_append (h v (by simp))).separator (Or.inl rfl)

lemma closes_memberTail {ms : List (Bytes × Value)} (h : ∀ m ∈ ms, Raw (JsonText.encode code m.2)) :
    Closes (encodeMemberTail code ms) := by
  induction ms with
  | nil => exact closes_bracket (Or.inr rfl)
  | cons m ms ih =>
    have ht := ih (fun w hw => h w (by simp [hw]))
    have hv := (ht.raw_append (h m (by simp))).separator (Or.inr rfl)
    exact (hv.raw_append (raw_quote m.1)).separator (Or.inl rfl)

theorem raw_encode (v : Value) : Raw (JsonText.encode code v) := by
  induction v using Tree.ind with
  | leaf a =>
    cases a with
    | word w => simpa [JsonText.encode, code, leafText] using raw_word w.text_ne_nil w.wordChars
    | str s => simpa [JsonText.encode, code, leafText] using raw_quote s
  | arr items h =>
    rw [JsonText.encode]
    refine raw_of_closes (Or.inl rfl) ?_
    cases items with
    | nil => exact closes_bracket (Or.inl rfl)
    | cons v items =>
      exact (closes_itemTail (fun w hw => h w (by simp [hw]))).raw_append (h v (by simp))
  | obj ms h =>
    rw [JsonText.encode]
    refine raw_of_closes (Or.inr rfl) ?_
    cases ms with
    | nil => exact closes_bracket (Or.inr rfl)
    | cons m ms =>
      have ht := closes_memberTail (fun w (hw : w ∈ ms) => h w (by simp [hw]))
      have hv := (ht.raw_append (h m (by simp))).separator (Or.inr rfl)
      exact hv.raw_append (raw_quote m.1)

end Values

end Breeze.Lib.GoJson
