import Breeze.Lib.Decimal

/-! Trees written as JSON text without blanks. The text determines the tree as soon as the texts of the
leaves and of the keys can be told from what follows them. -/

namespace Breeze.Lib.JsonText

open Decimal

inductive Tree (K A : Type) where
  | leaf (a : A)
  | arr (items : List (Tree K A))
  | obj (members : List (K × Tree K A))

variable {K A : Type}

theorem Tree.ind {P : Tree K A → Prop} (leaf : ∀ a, P (.leaf a))
    (arr : ∀ items, (∀ v ∈ items, P v) → P (.arr items))
    (obj : ∀ members, (∀ m ∈ members, P m.2) → P (.obj members)) (v : Tree K A) : P v := by
  refine @Tree.rec K A P (fun items => ∀ v ∈ items, P v) (fun members => ∀ m ∈ members, P m.2)
    (fun m => P m.2) leaf arr obj (by simp) ?_ (by simp) ?_ (fun _ _ hv => hv) v
  · exact fun v items hv hi => List.forall_mem_cons.mpr ⟨hv, hi⟩
  · exact fun m members hm hi => List.forall_mem_cons.mpr ⟨hm, hi⟩

mutual

def Tree.fold {B : Type*} (leaf : A → B) (arr : List B → B) (obj : List (K × B) → B) : Tree K A → B
  | .leaf a => leaf a
  | .arr items => arr (foldItems leaf arr obj items)
  | .obj members => obj (foldMembers leaf arr obj members)

def Tree.foldItems {B : Type*} (leaf : A → B) (arr : List B → B) (obj : List (K × B) → B) :
    List (Tree K A) → List B
  | [] => []
  | v :: items => Tree.fold leaf arr obj v :: foldItems leaf arr obj items

def Tree.foldMembers {B : Type*} (leaf : A → B) (arr : List B → B) (obj : List (K × B) → B) :
    List (K × Tree K A) → List (K × B)
  | [] => []
  | (k, v) :: members => (k, Tree.fold leaf arr obj v) :: foldMembers leaf arr obj members

end

def mapValues {B D : Type*} (f : B → D) (ms : List (K × B)) : List (K × D) := ms.map (fun m => (m.1, f m.2))

section Fold

variable {B : Type*} (leaf : A → B) (arr : List B → B) (obj : List (K × B) → B)

lemma Tree.foldItems_eq (items : List (Tree K A)) :
    Tree.foldItems leaf arr obj items = items.map (Tree.fold leaf arr obj) := by
  induction items with
  | nil => simp [Tree.foldItems]
  | cons v items ih => simp [Tree.foldItems, ih]

lemma Tree.foldMembers_eq (ms : List (K × Tree K A)) :
    Tree.foldMembers leaf arr obj ms = mapValues (Tree.fold leaf arr obj) ms := by
  induction ms with
  | nil => simp [Tree.foldMembers, mapValues]
  | cons m ms ih => simp [Tree.foldMembers, ih, mapValues]

@[simp] lemma Tree.fold_leaf (a : A) : Tree.fold leaf arr obj (.leaf a) = leaf a := by
  simp [Tree.fold]

@[simp] lemma Tree.fold_arr (items : List (Tree K A)) :
    Tree.fold leaf arr obj (.arr items) = arr (items.map (Tree.fold leaf arr obj)) := by
  simp [Tree.fold, Tree.foldItems_eq]

@[simp] lemma Tree.fold_obj (ms : List (K × Tree K A)) :
    Tree.fold leaf arr obj (.obj ms) = obj (mapValues (Tree.fold leaf arr obj) ms) := by
  simp [Tree.fold, Tree.foldMembers_eq]

end Fold

def Ends (r : Text) : Prop := ∀ c t, r = c :: t → c = ',' ∨ c = ']' ∨ c = '}'

structure Code (K A : Type) where
  leaf : A → Text
  key : K → Text

structure Code.Lawful (C : Code K A) : Prop where
  leaf_unique : ∀ {a b r s}, Ends r → Ends s → C.leaf a ++ r = C.leaf b ++ s → a = b ∧ r = s
  leaf_head : ∀ a, ∃ c t, C.leaf a = c :: t ∧ c ≠ '[' ∧ c ≠ '{' ∧ c ≠ ']'
  key_unique : ∀ {k l r s}, C.key k ++ ':' :: r = C.key l ++ ':' :: s → k = l ∧ r = s
  key_head : ∀ k, ∃ t, C.key k = '"' :: t

variable (C : Code K A)

mutual

def encode : Tree K A → Text
  | .leaf a => C.leaf a
  | .arr items => '[' :: encodeItems items
  | .obj members => '{' :: encodeMembers members

def encodeItems : List (Tree K A) → Text
  | [] => [']']
  | v :: items => encode v ++ encodeItemTail items

def encodeItemTail : List (Tree K A) → Text
  | [] => [']']
  | v :: items => ',' :: (encode v ++ encodeItemTail items)

def encodeMembers : List (K × Tree K A) → Text
  | [] => ['}']
  | (k, v) :: members => C.key k ++ ':' :: (encode v ++ encodeMemberTail members)

def encodeMemberTail : List (K × Tree K A) → Text
  | [] => ['}']
  | (k, v) :: members => ',' :: (C.key k ++ ':' :: (encode v ++ encodeMemberTail members))

end

lemma ends_itemTail (items : List (Tree K A)) (r : Text) : Ends (encodeItemTail C items ++ r) := by
  intro c t h
  cases items <;> simp [encodeItemTail] at h <;> simp [← h.1]

lemma ends_memberTail (members : List (K × Tree K A)) (r : Text) : Ends (encodeMemberTail C members ++ r) := by
  intro c t h
  cases members <;> simp [encodeMemberTail] at h <;> simp [← h.1]

lemma encode_head (hleaf : ∀ a, ∃ c t, C.leaf a = c :: t ∧ c ≠ '[' ∧ c ≠ '{' ∧ c ≠ ']') (v : Tree K A) :
    ∃ c t, encode C v = c :: t ∧ c ≠ ']' := by
  cases v with
  | leaf a =>
    obtain ⟨c, t, h, _, _, hc⟩ := hleaf a
    exact ⟨c, t, by simpa [encode] using h, hc⟩
  | arr items => exact ⟨'[', encodeItems C items, by simp [encode], by decide⟩
  | obj members => exact ⟨'{', encodeMembers C members, by simp [encode], by decide⟩

def Unique (v : Tree K A) : Prop :=
  ∀ w r s, Ends r → Ends s → encode C v ++ r = encode C w ++ s → v = w ∧ r = s

variable {C}

variable {vs ws : List (Tree K A)} {r s : Text} {ms ns : List (K × Tree K A)}

lemma itemTail_unique (hv : ∀ v ∈ vs, Unique C v)
    (h : encodeItemTail C vs ++ r = encodeItemTail C ws ++ s) : vs = ws ∧ r = s := by
  induction vs generalizing ws with
  | nil =>
    cases ws with
    | nil => simpa [encodeItemTail] using h
    | cons w ws => simp [encodeItemTail] at h
  | cons v vs ih =>
    cases ws with
    | nil => simp [encodeItemTail] at h
    | cons w ws =>
      simp only [encodeItemTail, List.cons_append, List.append_assoc, List.cons.injEq, true_and] at h
      obtain ⟨rfl, hh⟩ := hv v (by simp) w _ _ (ends_itemTail C vs r) (ends_itemTail C ws s) h
      obtain ⟨rfl, hrs⟩ := ih (fun x hx => hv x (by simp [hx])) hh
      exact ⟨rfl, hrs⟩

lemma items_unique (hC : C.Lawful) (hv : ∀ v ∈ vs, Unique C v)
    (h : encodeItems C vs ++ r = encodeItems C ws ++ s) : vs = ws ∧ r = s := by
  cases vs with
  | nil =>
    cases ws with
    | nil => simpa [encodeItems] using h
    | cons w ws =>
      obtain ⟨c, t, hc, hb⟩ := encode_head C hC.leaf_head w
      simp [encodeItems, hc, hb.symm] at h
  | cons v vs =>
    cases ws with
    | nil =>
      obtain ⟨c, t, hc, hb⟩ := encode_head C hC.leaf_head v
      simp [encodeItems, hc, hb] at h
    | cons w ws => exact itemTail_unique hv (by simpa [encodeItems, encodeItemTail] using h)

lemma memberTail_unique (hC : C.Lawful) (hv : ∀ m ∈ ms, Unique C m.2)
    (h : encodeMemberTail C ms ++ r = encodeMemberTail C ns ++ s) : ms = ns ∧ r = s := by
  induction ms generalizing ns with
  | nil =>
    cases ns with
    | nil => simpa [encodeMemberTail] using h
    | cons n ns => simp [encodeMemberTail] at h
  | cons m ms ih =>
    cases ns with
    | nil => simp [encodeMemberTail] at h
    | cons n ns =>
      obtain ⟨k, v⟩ := m
      obtain ⟨l, w⟩ := n
      simp only [encodeMemberTail, List.append_assoc, List.cons_append, List.cons.injEq, true_and] at h
      obtain ⟨rfl, hkv⟩ := hC.key_unique h
      obtain ⟨rfl, hh⟩ := hv (k, v) (by simp) w _ _ (ends_memberTail C ms r) (ends_memberTail C ns s) hkv
      obtain ⟨rfl, hrs⟩ := ih (fun x hx => hv x (by simp [hx])) hh
      exact ⟨rfl, hrs⟩

lemma members_unique (hC : C.Lawful) (hv : ∀ m ∈ ms, Unique C m.2)
    (h : encodeMembers C ms ++ r = encodeMembers C ns ++ s) : ms = ns ∧ r = s := by
  cases ms with
  | nil =>
    cases ns with
    | nil => simpa [encodeMembers] using h
    | cons n ns =>
      obtain ⟨t, ht⟩ := hC.key_head n.1
      simp [encodeMembers, ht] at h
  | cons m ms =>
    cases ns with
    | nil =>
      obtain ⟨t, ht⟩ := hC.key_head m.1
      simp [encodeMembers, ht] at h
    | cons n ns => exact memberTail_unique hC hv (by simpa [encodeMembers, encodeMemberTail] using h)

theorem encode_unique (hC : C.Lawful) (v : Tree K A) : Unique C v := by
  induction v using Tree.ind with
  | leaf a =>
    intro w r s hr hs h
    obtain ⟨c, t, hc, hb, hbr, _⟩ := hC.leaf_head a
    cases w with
    | leaf b => simpa using hC.leaf_unique hr hs (by simpa [encode] using h)
    | arr items => simp [encode, hc, hb] at h
    | obj members => simp [encode, hc, hbr] at h
  | arr items ih =>
    intro w r s hr hs h
    cases w with
    | leaf b =>
      obtain ⟨c, t, hc, hb, hbr, _⟩ := hC.leaf_head b
      simp [encode, hc, hb.symm] at h
    | arr items' => simpa using items_unique hC ih (by simpa [encode] using h)
    | obj members => simp [encode] at h
  | obj members ih =>
    intro w r s hr hs h
    cases w with
    | leaf b =>
      obtain ⟨c, t, hc, hb, hbr, _⟩ := hC.leaf_head b
      simp [encode, hc, hbr.symm] at h
    | arr items => simp [encode] at h
    | obj members' => simpa using members_unique hC ih (by simpa [encode] using h)

theorem encode_injective (hC : C.Lawful) {v w : Tree K A} (h : encode C v = encode C w) : v = w :=
  (encode_unique hC v w [] [] (by simp [Ends]) (by simp [Ends]) (by simpa using h)).1

end Breeze.Lib.JsonText
