import Breeze.Lib.JsonText
import Breeze.Lib.Whitespace

/-! Operations on trees, and what they do to the text: mapping leaves and keys, the leaves and keys that occur, members
in the order of their keys. -/

namespace Breeze.Lib.JsonText

open Decimal List

variable {K L A B : Type}

section Joined

def joined (ts : List Text) : Text := [','].intercalate ts

lemma joined_cons_cons (t u : Text) (ts : List Text) : joined (t :: u :: ts) = t ++ ',' :: joined (u :: ts) := by
  simp [joined, List.intercalate, List.intersperse]

lemma infix_joined {t : Text} {ts : List Text} (h : t ∈ ts) : t <:+: joined ts := by
  induction ts with
  | nil => cases h
  | cons u ts ih =>
    cases ts with
    | nil =>
      rw [List.mem_singleton.mp h]
      simp [joined, List.intercalate]
    | cons x ts =>
      rw [joined_cons_cons]
      rcases List.mem_cons.mp h with rfl | h
      · exact (prefix_append _ _).isInfix
      · exact (ih h).trans ((suffix_cons _ _).trans (suffix_append _ _)).isInfix

variable (C : Code K A)

def memberText (m : K × Tree K A) : Text := C.key m.1 ++ ':' :: encode C m.2

lemma encodeItems_eq (v : Tree K A) (items : List (Tree K A)) :
    encode C v ++ encodeItemTail C items = joined ((v :: items).map (encode C)) ++ [']'] := by
  induction items generalizing v with
  | nil => simp [encodeItemTail, joined, List.intercalate]
  | cons w items ih => rw [encodeItemTail, ih, map_cons, map_cons, map_cons, joined_cons_cons, append_assoc,
      cons_append]

lemma encodeMembers_eq (m : K × Tree K A) (ms : List (K × Tree K A)) :
    C.key m.1 ++ ':' :: (encode C m.2 ++ encodeMemberTail C ms) = joined ((m :: ms).map (memberText C)) ++ ['}'] := by
  induction ms generalizing m with
  | nil => simp [encodeMemberTail, joined, List.intercalate, memberText]
  | cons n ms ih =>
    rw [encodeMemberTail, ih, map_cons, map_cons, map_cons, joined_cons_cons]
    simp [memberText]

lemma encode_leaf (a : A) : encode C (.leaf a) = C.leaf a := by
  rw [encode]

lemma encode_arr (items : List (Tree K A)) : encode C (.arr items) = '[' :: (joined (items.map (encode C)) ++ [']']) := by
  cases items with
  | nil => rfl
  | cons v items => rw [encode, encodeItems, encodeItems_eq]

lemma encode_obj (ms : List (K × Tree K A)) : encode C (.obj ms) = '{' :: (joined (ms.map (memberText C)) ++ ['}']) := by
  cases ms with
  | nil => rfl
  | cons m ms => rw [encode, encodeMembers, encodeMembers_eq]

end Joined

section Map

def Tree.relabel (f : K → L) (g : A → B) : Tree K A → Tree L B :=
  Tree.fold (fun a => .leaf (g a)) .arr fun ms => .obj (ms.map fun m => (f m.1, m.2))

variable (f : K → L) (g : A → B)

@[simp] lemma Tree.relabel_leaf (a : A) : Tree.relabel f g (.leaf a) = .leaf (g a) := by
  simp [Tree.relabel]

@[simp] lemma Tree.relabel_arr (items : List (Tree K A)) : Tree.relabel f g (.arr items) = .arr (items.map (Tree.relabel f g)) := by
  simp [Tree.relabel]

@[simp] lemma Tree.relabel_obj (ms : List (K × Tree K A)) :
    Tree.relabel f g (.obj ms) = .obj (ms.map fun m => (f m.1, Tree.relabel f g m.2)) := by
  simp [Tree.relabel, mapValues, Function.comp_def]

def Code.comap (C : Code L B) : Code K A where
  leaf := fun a => C.leaf (g a)
  key := fun k => C.key (f k)

theorem encode_relabel (C : Code L B) (v : Tree K A) : encode C (Tree.relabel f g v) = encode (C.comap f g) v := by
  induction v using Tree.ind with
  | leaf a => simp [encode_leaf, Code.comap]
  | arr items ih =>
    rw [Tree.relabel_arr, encode_arr, encode_arr, map_map]
    rw [map_congr_left (g := encode (C.comap f g))]
    exact fun v hv => ih v hv
  | obj ms ih =>
    rw [Tree.relabel_obj, encode_obj, encode_obj, map_map]
    rw [map_congr_left (g := memberText (C.comap f g))]
    intro m hm
    simp only [Function.comp_apply, memberText, ih m hm]
    rfl

end Map

section Occurs

def Tree.leaves : Tree K A → List A := Tree.fold (fun a => [a]) List.flatten fun ms => ms.flatMap Prod.snd

def Tree.keys : Tree K A → List K := Tree.fold (fun _ => []) List.flatten fun ms => ms.flatMap fun m => m.1 :: m.2

@[simp] lemma Tree.leaves_leaf (a : A) : (Tree.leaf a : Tree K A).leaves = [a] := by
  simp [Tree.leaves]

@[simp] lemma Tree.leaves_arr (items : List (Tree K A)) : (Tree.arr items).leaves = items.flatMap Tree.leaves := by
  rw [Tree.leaves, Tree.fold_arr]
  rfl

@[simp] lemma Tree.leaves_obj (ms : List (K × Tree K A)) : (Tree.obj ms).leaves = ms.flatMap fun m => m.2.leaves := by
  rw [Tree.leaves, Tree.fold_obj, mapValues, flatMap_map]

@[simp] lemma Tree.keys_leaf (a : A) : (Tree.leaf a : Tree K A).keys = [] := by
  simp [Tree.keys]

@[simp] lemma Tree.keys_arr (items : List (Tree K A)) : (Tree.arr items).keys = items.flatMap Tree.keys := by
  rw [Tree.keys, Tree.fold_arr]
  rfl

@[simp] lemma Tree.keys_obj (ms : List (K × Tree K A)) : (Tree.obj ms).keys = ms.flatMap fun m => m.1 :: m.2.keys := by
  rw [Tree.keys, Tree.fold_obj, mapValues, flatMap_map]

variable {items : List (Tree K A)} {v : Tree K A} {ms : List (K × Tree K A)} {m : K × Tree K A}

lemma Tree.mem_leaves_item (hv : v ∈ items) {a : A} (ha : a ∈ v.leaves) : a ∈ (Tree.arr items).leaves := by
  rw [Tree.leaves_arr]
  exact mem_flatMap_of_mem hv ha

lemma Tree.mem_keys_item (hv : v ∈ items) {k : K} (hk : k ∈ v.keys) : k ∈ (Tree.arr items).keys := by
  rw [Tree.keys_arr]
  exact mem_flatMap_of_mem hv hk

lemma Tree.mem_leaves_member (hm : m ∈ ms) {a : A} (ha : a ∈ m.2.leaves) : a ∈ (Tree.obj ms).leaves := by
  rw [Tree.leaves_obj]
  exact mem_flatMap_of_mem hm ha

lemma Tree.mem_keys_member (hm : m ∈ ms) {k : K} (hk : k = m.1 ∨ k ∈ m.2.keys) : k ∈ (Tree.obj ms).keys := by
  rw [Tree.keys_obj]
  exact mem_flatMap_of_mem hm (List.mem_cons.mpr hk)

variable {C D : Code K A}

theorem encode_congr (hl : ∀ a ∈ v.leaves, C.leaf a = D.leaf a) (hk : ∀ k ∈ v.keys, C.key k = D.key k) :
    encode C v = encode D v := by
  induction v using Tree.ind with
  | leaf a => simpa [encode_leaf] using hl
  | arr items ih =>
    have hitems : items.map (encode C) = items.map (encode D) := by
      refine map_congr_left fun v hv => ih v hv (fun a ha => hl a ?_) fun k hk' => hk k ?_
      · exact Tree.mem_leaves_item hv ha
      · exact Tree.mem_keys_item hv hk'
    rw [encode_arr, encode_arr, hitems]
  | obj ms ih =>
    have hms : ms.map (memberText C) = ms.map (memberText D) := by
      refine map_congr_left fun m hm => ?_
      have hv : encode C m.2 = encode D m.2 := by
        refine ih m hm (fun a ha => hl a ?_) fun k hk' => hk k ?_
        · exact Tree.mem_leaves_member hm ha
        · exact Tree.mem_keys_member hm (Or.inr hk')
      have hkey : C.key m.1 = D.key m.1 := hk m.1 (Tree.mem_keys_member hm (Or.inl rfl))
      rw [memberText, memberText, hv, hkey]
    rw [encode_obj, encode_obj, hms]

theorem encode_chars {P : Char → Prop} (hp : ∀ c ∈ ['[', ']', '{', '}', ',', ':'], P c)
    (hl : ∀ a ∈ v.leaves, ∀ c ∈ C.leaf a, P c) (hk : ∀ k ∈ v.keys, ∀ c ∈ C.key k, P c) : ∀ c ∈ encode C v, P c := by
  induction v using Tree.ind with
  | leaf a => simpa [encode_leaf] using hl
  | arr items ih =>
    intro c hc
    rw [encode_arr, mem_cons, mem_append, mem_singleton] at hc
    rcases hc with rfl | hc | rfl
    · exact hp '[' (by simp)
    · rcases Whitespace.mem_intercalate hc with rfl | ⟨t, ht, hc⟩
      · exact hp ',' (by simp)
      obtain ⟨v, hv, rfl⟩ := List.mem_map.mp ht
      refine ih v hv (fun a ha => hl a ?_) (fun k hk' => hk k ?_) c hc
      · exact Tree.mem_leaves_item hv ha
      · exact Tree.mem_keys_item hv hk'
    · exact hp ']' (by simp)
  | obj ms ih =>
    intro c hc
    rw [encode_obj, mem_cons, mem_append, mem_singleton] at hc
    rcases hc with rfl | hc | rfl
    · exact hp '{' (by simp)
    · rcases Whitespace.mem_intercalate hc with rfl | ⟨t, ht, hc⟩
      · exact hp ',' (by simp)
      obtain ⟨m, hm, rfl⟩ := List.mem_map.mp ht
      rw [memberText, mem_append, mem_cons] at hc
      rcases hc with hc | rfl | hc
      · exact hk m.1 (Tree.mem_keys_member hm (Or.inl rfl)) c hc
      · exact hp ':' (by simp)
      · refine ih m hm (fun a ha => hl a ?_) (fun k hk' => hk k ?_) c hc
        · exact Tree.mem_leaves_member hm ha
        · exact Tree.mem_keys_member hm (Or.inr hk')
    · exact hp '}' (by simp)

lemma infix_enclosed {t u : Text} (h : t <:+: u) (b e : Char) : t <:+: b :: (u ++ [e]) :=
  (h.trans (prefix_append u [e]).isInfix).trans (suffix_cons b _).isInfix

lemma infix_item (h : v ∈ items) : encode C v <:+: encode C (.arr items) := by
  rw [encode_arr]
  exact infix_enclosed (infix_joined (mem_map_of_mem h)) _ _

lemma infix_member (h : m ∈ ms) : memberText C m <:+: encode C (.obj ms) := by
  rw [encode_obj]
  exact infix_enclosed (infix_joined (mem_map_of_mem h)) _ _

lemma infix_value (h : m ∈ ms) : encode C m.2 <:+: encode C (.obj ms) :=
  ((suffix_cons ':' _).trans (suffix_append _ _)).isInfix.trans (infix_member h)

theorem infix_leaf {a : A} (h : a ∈ v.leaves) : C.leaf a <:+: encode C v := by
  induction v using Tree.ind with
  | leaf b =>
    rw [Tree.leaves_leaf, mem_singleton] at h
    rw [h, encode_leaf]
  | arr items ih =>
    rw [Tree.leaves_arr, mem_flatMap] at h
    obtain ⟨v, hv, ha⟩ := h
    exact (ih v hv ha).trans (infix_item hv)
  | obj ms ih =>
    rw [Tree.leaves_obj, mem_flatMap] at h
    obtain ⟨m, hm, ha⟩ := h
    exact (ih m hm ha).trans (infix_value hm)

theorem infix_key {k : K} (h : k ∈ v.keys) : C.key k <:+: encode C v := by
  induction v using Tree.ind with
  | leaf b => simp at h
  | arr items ih =>
    rw [Tree.keys_arr, mem_flatMap] at h
    obtain ⟨v, hv, hk⟩ := h
    exact (ih v hv hk).trans (infix_item hv)
  | obj ms ih =>
    rw [Tree.keys_obj, mem_flatMap] at h
    obtain ⟨m, hm, hk⟩ := h
    rcases List.mem_cons.mp hk with rfl | hk
    · exact (prefix_append _ _).isInfix.trans (infix_member hm)
    · exact (ih m hm hk).trans (infix_value hm)

end Occurs

section Agree

variable {C D : Code K A}

def Agrees (C D : Code K A) (v : Tree K A) : Prop :=
  ∀ r s, Ends r → Ends s → encode C v ++ r = encode D v ++ s → (∀ a ∈ v.leaves, C.leaf a = D.leaf a) ∧ r = s

lemma itemTail_agrees {items : List (Tree K A)} (ih : ∀ v ∈ items, Agrees C D v) {r s : Text}
    (h : encodeItemTail C items ++ r = encodeItemTail D items ++ s) :
    (∀ v ∈ items, ∀ a ∈ v.leaves, C.leaf a = D.leaf a) ∧ r = s := by
  induction items with
  | nil => simpa [encodeItemTail] using h
  | cons v items hi =>
    simp only [encodeItemTail, cons_append, append_assoc, List.cons.injEq, true_and] at h
    obtain ⟨hv, hrest⟩ := ih v mem_cons_self _ _ (ends_itemTail C items r) (ends_itemTail D items s) h
    obtain ⟨hitems, hrs⟩ := hi (fun w hw => ih w (mem_cons_of_mem _ hw)) hrest
    exact ⟨List.forall_mem_cons.mpr ⟨hv, hitems⟩, hrs⟩

lemma memberTail_agrees {ms : List (K × Tree K A)} (hk : ∀ k, C.key k = D.key k) (ih : ∀ m ∈ ms, Agrees C D m.2) {r s : Text}
    (h : encodeMemberTail C ms ++ r = encodeMemberTail D ms ++ s) :
    (∀ m ∈ ms, ∀ a ∈ m.2.leaves, C.leaf a = D.leaf a) ∧ r = s := by
  induction ms with
  | nil => simpa [encodeMemberTail] using h
  | cons m ms hi =>
    obtain ⟨k, v⟩ := m
    simp only [encodeMemberTail, hk, cons_append, append_assoc, append_cancel_left_eq, List.cons.injEq,
      true_and] at h
    obtain ⟨hv, hrest⟩ := ih (k, v) mem_cons_self _ _ (ends_memberTail C ms r) (ends_memberTail D ms s) h
    obtain ⟨hms, hrs⟩ := hi (fun w hw => ih w (mem_cons_of_mem _ hw)) hrest
    exact ⟨List.forall_mem_cons.mpr ⟨hv, hms⟩, hrs⟩

theorem encode_agrees (hk : ∀ k, C.key k = D.key k) {v : Tree K A}
    (hl : ∀ a ∈ v.leaves, ∀ r s, Ends r → Ends s → C.leaf a ++ r = D.leaf a ++ s → C.leaf a = D.leaf a ∧ r = s) :
    Agrees C D v := by
  induction v using Tree.ind with
  | leaf a =>
    intro r s hr hs h
    rw [encode_leaf, encode_leaf] at h
    simpa using hl a (by simp) r s hr hs h
  | arr items ih =>
    intro r s hr hs h
    have hitems : ∀ v ∈ items, Agrees C D v := by
      exact fun v hv => ih v hv fun a ha => hl a (Tree.mem_leaves_item hv ha)
    have htail : encodeItemTail C items ++ r = encodeItemTail D items ++ s := by
      cases items with
      | nil | cons v items => simpa [encode, encodeItems, encodeItemTail] using h
    obtain ⟨hall, hrs⟩ := itemTail_agrees hitems htail
    refine ⟨fun a ha => ?_, hrs⟩
    rw [Tree.leaves_arr, mem_flatMap] at ha
    obtain ⟨v, hv, ha⟩ := ha
    exact hall v hv a ha
  | obj ms ih =>
    intro r s hr hs h
    have hms : ∀ m ∈ ms, Agrees C D m.2 := by
      exact fun m hm => ih m hm fun a ha => hl a (Tree.mem_leaves_member hm ha)
    have htail : encodeMemberTail C ms ++ r = encodeMemberTail D ms ++ s := by
      cases ms with
      | nil | cons m ms => simpa [encode, encodeMembers, encodeMemberTail] using h
    obtain ⟨hall, hrs⟩ := memberTail_agrees hk hms htail
    refine ⟨fun a ha => ?_, hrs⟩
    rw [Tree.leaves_obj, mem_flatMap] at ha
    obtain ⟨m, hm, ha⟩ := ha
    exact hall m hm a ha

end Agree

section Sorted

variable {O : Type} [LinearOrder O] (f : K → O)

def byKey {B : Type} (ms : List (K × B)) : List (K × B) := ms.insertionSort fun m n => f m.1 ≤ f n.1

def Tree.sorted : Tree K A → Tree K A := Tree.fold .leaf .arr fun ms => .obj (byKey f ms)

def Tree.Distinct : Tree K A → Prop :=
  Tree.fold (fun _ => True) (fun ps => ∀ p ∈ ps, p) fun ms => (ms.map Prod.fst).Nodup ∧ ∀ m ∈ ms, m.2

@[simp] lemma Tree.distinct_arr (items : List (Tree K A)) : (Tree.arr items).Distinct ↔ ∀ v ∈ items, v.Distinct := by
  rw [Tree.Distinct, Tree.fold_arr, forall_mem_map]

@[simp] lemma Tree.distinct_obj (ms : List (K × Tree K A)) :
    (Tree.obj ms).Distinct ↔ (ms.map Prod.fst).Nodup ∧ ∀ m ∈ ms, m.2.Distinct := by
  rw [Tree.Distinct, Tree.fold_obj, mapValues, map_map, forall_mem_map]
  rfl

variable {B : Type}

instance byKey_total : Std.Total fun m n : K × B => f m.1 ≤ f n.1 := ⟨fun m n => le_total (f m.1) (f n.1)⟩

instance byKey_trans : IsTrans (K × B) fun m n => f m.1 ≤ f n.1 := ⟨fun _ _ _ => le_trans⟩

lemma byKey_perm (ms : List (K × B)) : (byKey f ms).Perm ms := perm_insertionSort _ ms

lemma byKey_pairwise (ms : List (K × B)) : (byKey f ms).Pairwise fun m n => f m.1 ≤ f n.1 := pairwise_insertionSort _ ms

lemma byKey_idem (ms : List (K × B)) : byKey f (byKey f ms) = byKey f ms := (byKey_pairwise f ms).insertionSort_eq

lemma byKey_map {D : Type} {g : L → O} (F : K × B → L × D) {ms : List (K × B)} (hF : ∀ m ∈ ms, g (F m).1 = f m.1) :
    byKey g (ms.map F) = (byKey f ms).map F := by
  refine (map_insertionSort _ _ F ms fun m hm n hn => ?_).symm
  rw [hF m hm, hF n hn]

lemma byKey_eq_of_perm {ms ns : List (K × B)} (hk : (ms.map Prod.fst).Nodup) (hf : Set.InjOn f {k | k ∈ ms.map Prod.fst})
    (h : ms.Perm ns) : byKey f ms = byKey f ns := by
  have hperm : (byKey f ms).Perm (byKey f ns) := ((byKey_perm f ms).trans h).trans (byKey_perm f ns).symm
  refine hperm.eq_of_pairwise (fun m n hm hn hle hge => ?_) (byKey_pairwise f ms) (byKey_pairwise f ns)
  have hm' : m ∈ ms := (byKey_perm f ms).subset hm
  have hn' : n ∈ ms := h.symm.subset ((byKey_perm f ns).subset hn)
  have hfst : m.1 = n.1 := hf (mem_map_of_mem hm') (mem_map_of_mem hn') (le_antisymm hle hge)
  exact inj_on_of_nodup_map hk hm' hn' hfst

@[simp] lemma Tree.sorted_leaf (a : A) : (Tree.leaf a : Tree K A).sorted f = .leaf a := by
  simp [Tree.sorted]

@[simp] lemma Tree.sorted_arr (items : List (Tree K A)) : (Tree.arr items).sorted f = .arr (items.map (Tree.sorted f)) := by
  simp [Tree.sorted]

@[simp] lemma Tree.sorted_obj (ms : List (K × Tree K A)) :
    (Tree.obj ms).sorted f = .obj (byKey f (mapValues (Tree.sorted f) ms)) := by
  simp [Tree.sorted]

lemma Tree.mem_leaves_sorted (v : Tree K A) (a : A) : a ∈ (v.sorted f).leaves ↔ a ∈ v.leaves := by
  induction v using Tree.ind with
  | leaf b => simp
  | arr items ih =>
    simp only [Tree.sorted_arr, Tree.leaves_arr, mem_flatMap, mem_map, exists_exists_and_eq_and]
    exact exists_congr fun v => and_congr_right fun hv => ih v hv
  | obj ms ih =>
    simp only [Tree.sorted_obj, Tree.leaves_obj, mem_flatMap, (byKey_perm f _).mem_iff, mapValues, mem_map,
      exists_exists_and_eq_and]
    exact exists_congr fun m => and_congr_right fun hm => ih m hm

lemma Tree.mem_keys_sorted (v : Tree K A) (k : K) : k ∈ (v.sorted f).keys ↔ k ∈ v.keys := by
  induction v using Tree.ind with
  | leaf b => simp
  | arr items ih =>
    simp only [Tree.sorted_arr, Tree.keys_arr, mem_flatMap, mem_map, exists_exists_and_eq_and]
    exact exists_congr fun v => and_congr_right fun hv => ih v hv
  | obj ms ih =>
    simp only [Tree.sorted_obj, Tree.keys_obj, mem_flatMap, (byKey_perm f _).mem_iff, mapValues, mem_map,
      exists_exists_and_eq_and, mem_cons]
    exact exists_congr fun m => and_congr_right fun hm => or_congr_right (ih m hm)

lemma Tree.sorted_idem (v : Tree K A) : (v.sorted f).sorted f = v.sorted f := by
  induction v using Tree.ind with
  | leaf a => simp
  | arr items ih =>
    simp only [Tree.sorted_arr, map_map, Tree.arr.injEq]
    exact map_congr_left fun v hv => ih v hv
  | obj ms ih =>
    have hvalues : mapValues (Tree.sorted f) (mapValues (Tree.sorted f) ms) = mapValues (Tree.sorted f) ms := by
      rw [mapValues, mapValues, map_map]
      exact map_congr_left fun m hm => Prod.ext rfl (ih m hm)
    rw [Tree.sorted_obj, Tree.sorted_obj, mapValues,
      ← byKey_map f (g := f) (fun m => (m.1, Tree.sorted f m.2)) (fun _ _ => rfl), ← mapValues, hvalues, byKey_idem]

lemma Tree.sorted_relabel {g : L → O} {h : K → L} (e : A → B) {v : Tree K A} (hg : ∀ k ∈ v.keys, g (h k) = f k) :
    (Tree.relabel h e v).sorted g = Tree.relabel h e (v.sorted f) := by
  induction v using Tree.ind with
  | leaf a => simp
  | arr items ih =>
    simp only [Tree.relabel_arr, Tree.sorted_arr, map_map, Tree.arr.injEq]
    exact map_congr_left fun v hv => ih v hv fun k hk => hg k (Tree.mem_keys_item hv hk)
  | obj ms ih =>
    have hvalue : ∀ m ∈ ms, (Tree.relabel h e m.2).sorted g = Tree.relabel h e (m.2.sorted f) :=
      fun m hm => ih m hm fun k hk => hg k (Tree.mem_keys_member hm (Or.inr hk))
    have hkey : ∀ m ∈ mapValues (Tree.sorted f) ms, g (h m.1) = f m.1 := by
      intro m hm
      obtain ⟨n, hn, rfl⟩ := List.mem_map.mp hm
      exact hg n.1 (Tree.mem_keys_member hn (Or.inl rfl))
    rw [Tree.relabel_obj, Tree.sorted_obj, Tree.sorted_obj, Tree.relabel_obj,
      ← byKey_map f (g := g) (fun m => (h m.1, Tree.relabel h e m.2)) hkey, mapValues, mapValues, map_map, map_map]
    congr 2
    exact map_congr_left fun m hm => Prod.ext rfl (hvalue m hm)

end Sorted

section Present

def present (l : List (K × Option B)) : List (K × B) := l.filterMap fun m => m.2.map (m.1, ·)

end Present

end Breeze.Lib.JsonText
