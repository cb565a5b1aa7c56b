import Breeze.Approval.Canonicalize

/-! Which arguments a canonical text stands for. Rebuilding an object loses its `__proto__` member and
nothing else. -/

namespace Breeze.Approval.ArgumentBinding

open Breeze.Lib.Decimal Breeze.Lib.JsonText Breeze.Lib.Quoted Canonicalize List

section Members

variable {α β : Type} {ms ns : List (JsString × α)}

def keys (ms : List (JsString × α)) : List JsString := ms.map Prod.fst

section

variable (f : α → β) (ms : List (JsString × α))

@[simp] lemma keys_mapValues : keys (mapValues f ms) = keys ms := by
  simp [keys, mapValues]

@[simp] lemma ownKeys_mapValues : ownKeys (mapValues f ms) = ownKeys ms := by
  have h := keys_mapValues f ms
  simp only [keys] at h
  simp only [ownKeys, h]

@[simp] lemma lookup_mapValues (k : JsString) :
    (mapValues f ms).lookup k = (ms.lookup k).map f := by
  induction ms with
  | nil => rfl
  | cons m ms ih =>
    obtain ⟨l, v⟩ := m
    cases h : k == l with
    | true => simp [mapValues, List.lookup_cons, h]
    | false => simpa [mapValues, List.lookup_cons, h] using ih

end

lemma assign_mapValues (f : α → β) (out : List (JsString × α)) (k : JsString) (v : α) :
    assign (mapValues f out) k (f v) = mapValues f (assign out k v) := by
  have h := keys_mapValues f out
  simp only [keys] at h
  simp only [assign, h]
  split_ifs
  · rfl
  · simp only [mapValues, map_map]
    apply map_congr_left
    intro m _
    dsimp
    split <;> rfl
  · simp [mapValues]

lemma assignAll_mapValues (f : α → β) (ms out : List (JsString × α)) (ks : List JsString) :
    assignAll (mapValues f ms) (mapValues f out) ks = mapValues f (assignAll ms out ks) := by
  induction ks generalizing out with
  | nil => rfl
  | cons k ks ih =>
    simp only [assignAll, foldl_cons, lookup_mapValues] at ih ⊢
    cases ms.lookup k with
    | none => exact ih out
    | some v =>
      simp only [Option.map_some, assign_mapValues]
      exact ih _

lemma rebuild_mapValues (f : α → β) (ms : List (JsString × α)) :
    rebuild (mapValues f ms) = mapValues f (rebuild ms) := by
  rw [rebuild, ownKeys_mapValues]
  exact assignAll_mapValues f ms [] _

def pick (ms : List (JsString × α)) (ks : List JsString) : List (JsString × α) :=
  ks.filterMap (fun k => (ms.lookup k).map (Prod.mk k))

lemma lookup_eq_some_iff (h : (keys ms).Nodup) (k : JsString) (v : α) : ms.lookup k = some v ↔ (k, v) ∈ ms := by
  induction ms with
  | nil => simp
  | cons m ms ih =>
    obtain ⟨l, w⟩ := m
    simp only [keys, map_cons, nodup_cons] at h
    by_cases hk : k = l
    · subst hk
      have hm : (k, v) ∉ ms := fun hm => h.1 (List.mem_map.mpr ⟨_, hm, rfl⟩)
      simp [hm, eq_comm]
    · have hb : (k == l) = false := by simpa using hk
      simpa [List.lookup_cons, hb, hk] using ih h.2

variable {ks : List JsString}

section

variable (h : (keys ms).Nodup)

include h

lemma mem_pick {m : JsString × α} : m ∈ pick ms ks ↔ m.1 ∈ ks ∧ m ∈ ms := by
  simp only [pick, mem_filterMap, Option.map_eq_some_iff]
  constructor
  · rintro ⟨k, hk, v, hv, rfl⟩
    exact ⟨hk, (lookup_eq_some_iff h k v).mp hv⟩
  · rintro ⟨hk, hm⟩
    exact ⟨m.1, hk, m.2, (lookup_eq_some_iff h m.1 m.2).mpr hm, rfl⟩

lemma keys_pick (hk : ks ⊆ keys ms) : keys (pick ms ks) = ks := by
  induction ks with
  | nil => rfl
  | cons k ks ih =>
    obtain ⟨m, hm, rfl⟩ := List.mem_map.mp (hk mem_cons_self)
    have hl := (lookup_eq_some_iff h m.1 m.2).mpr hm
    have hrest := ih (fun x hx => hk (by simp [hx]))
    simp only [keys, pick] at hrest ⊢
    rw [filterMap_cons_some (by rw [hl]; rfl), map_cons, hrest]

lemma nodup_of_keys : ms.Nodup := List.Nodup.of_map _ h

lemma pick_perm (hn : ks.Nodup) (hk : ks ⊆ keys ms) :
    (pick ms ks).Perm (ms.filter (fun m => m.1 ∈ ks)) := by
  have hp : (keys (pick ms ks)).Nodup := by rwa [keys_pick h hk]
  rw [perm_ext_iff_of_nodup (nodup_of_keys hp) ((nodup_of_keys h).filter _)]
  intro m
  simp [mem_pick h, and_comm]

end

lemma ownKeys_perm (ms : List (JsString × α)) : (ownKeys ms).Perm (keys ms) := by
  refine ((perm_insertionSort _ _).append_right _).trans ?_
  have h := filter_append_perm (fun k => (arrayIndex k).isSome) (keys ms)
  simpa [keys] using h

lemma enumerate_perm (h : (keys ms).Nodup) : (enumerate ms).Perm ms := by
  have hp := ownKeys_perm ms
  refine (pick_perm h (hp.nodup_iff.mpr h) hp.subset).trans ?_
  rw [List.filter_eq_self.mpr]
  intro m hm
  simpa using hp.symm.subset (mem_map_of_mem hm)

def visible (ms : List (JsString × α)) : List (JsString × α) := ms.filter (fun m => m.1 ≠ protoKey)

lemma assign_fresh {out : List (JsString × α)} {k : JsString} (hk : k ∉ keys out) (v : α) :
    assign out k v = out ++ if k = protoKey then [] else [(k, v)] := by
  simp only [keys] at hk
  simp only [assign, hk, if_false]
  split <;> simp

lemma assignAll_eq (ms out : List (JsString × α)) (hn : ks.Nodup)
    (hd : ∀ k ∈ ks, k ∉ keys out) : assignAll ms out ks = out ++ pick ms (ks.filter (· ≠ protoKey)) := by
  induction ks generalizing out with
  | nil => simp [assignAll, pick]
  | cons k ks ih =>
    rw [nodup_cons] at hn
    have hstep : assignAll ms out (k :: ks) =
        assignAll ms (out ++ pick ms ([k].filter (· ≠ protoKey))) ks := by
      simp only [assignAll, foldl_cons]
      congr 1
      cases hl : ms.lookup k with
      | none => by_cases hp : k = protoKey <;> simp [pick, hp, hl]
      | some v =>
        dsimp only
        rw [assign_fresh (hd k (by simp))]
        by_cases hp : k = protoKey <;> simp [pick, hp, hl]
    rw [hstep, ih _ hn.2, append_assoc]
    · simp only [pick, ← filterMap_append, ← filter_append, singleton_append]
    · intro x hx hmem
      simp only [keys, map_append, mem_append] at hmem
      rcases hmem with hmem | hmem
      · exact hd x (by simp [hx]) hmem
      · obtain ⟨m, hm, rfl⟩ := List.mem_map.mp hmem
        simp only [pick, mem_filterMap, mem_filter, mem_singleton, Option.map_eq_some_iff] at hm
        obtain ⟨l, ⟨rfl, _⟩, v, _, rfl⟩ := hm
        exact hn.1 hx

def sortedVisible (ms : List (JsString × α)) : List JsString := (sortKeys (ownKeys ms)).filter (· ≠ protoKey)

lemma sortKeys_perm (ms : List (JsString × α)) : (sortKeys (ownKeys ms)).Perm (keys ms) :=
  (perm_insertionSort _ _).trans (ownKeys_perm ms)

lemma sortedVisible_perm (ms : List (JsString × α)) : (sortedVisible ms).Perm (keys (visible ms)) := by
  refine ((sortKeys_perm ms).filter _).trans ?_
  simp [keys, visible, filter_map, Function.comp_def]

lemma rebuild_eq (h : (keys ms).Nodup) : rebuild ms = pick ms (sortedVisible ms) := by
  rw [rebuild, assignAll_eq ms [] ((sortKeys_perm ms).nodup_iff.mpr h) (by simp [keys])]
  rfl

lemma rebuild_perm (h : (keys ms).Nodup) : (rebuild ms).Perm (visible ms) := by
  have hn : (sortedVisible ms).Nodup := ((sortKeys_perm ms).nodup_iff.mpr h).filter _
  rw [rebuild_eq h]
  refine (pick_perm h hn fun _ hk => (sortKeys_perm ms).subset (mem_of_mem_filter hk)).trans ?_
  rw [visible]
  refine List.Perm.of_eq (filter_congr ?_)
  intro m hm
  have hk : m.1 ∈ sortKeys (ownKeys ms) := (sortKeys_perm ms).symm.subset (mem_map_of_mem hm)
  simp [sortedVisible, hk]

lemma sorted_unique {xs ys : List JsString} (hx : xs.Pairwise (fun a b => a.map UInt16.toNat ≤ b.map UInt16.toNat))
    (hy : ys.Pairwise (fun a b => a.map UInt16.toNat ≤ b.map UInt16.toNat)) (h : xs.Perm ys) : xs = ys := by
  refine h.eq_of_pairwise ?_ hx hy
  intro a b _ _ hab hba
  exact List.map_injective_iff.mpr (fun u v huv => UInt16.toNat_inj.mp huv) (le_antisymm hab hba)

lemma sortKeys_sorted (ks : List JsString) :
    (sortKeys ks).Pairwise (fun a b => a.map UInt16.toNat ≤ b.map UInt16.toNat) := by
  have : Std.Total (fun a b : JsString => a.map UInt16.toNat ≤ b.map UInt16.toNat) := ⟨fun a b => le_total _ _⟩
  have : IsTrans JsString (fun a b => a.map UInt16.toNat ≤ b.map UInt16.toNat) := ⟨fun a b c => le_trans⟩
  exact pairwise_insertionSort _ _

lemma rebuild_congr (hm : (keys ms).Nodup) (hn : (keys ns).Nodup) (h : (visible ms).Perm (visible ns)) :
    rebuild ms = rebuild ns := by
  have hk : sortedVisible ms = sortedVisible ns := by
    refine sorted_unique ((sortKeys_sorted _).filter _) ((sortKeys_sorted _).filter _) ?_
    exact (sortedVisible_perm ms).trans ((h.map Prod.fst).trans (sortedVisible_perm ns).symm)
  rw [rebuild_eq hm, rebuild_eq hn, hk]
  apply filterMap_congr
  intro k hks
  have hne : k ≠ protoKey := by simpa using (List.mem_filter.mp hks).2
  have hmem : ∀ v, (k, v) ∈ ms ↔ (k, v) ∈ ns := by
    intro v
    have := h.mem_iff (a := (k, v))
    simpa [visible, hne] using this
  congr 1
  apply Option.ext
  intro v
  rw [lookup_eq_some_iff hm, lookup_eq_some_iff hn, hmem]

lemma enumerate_rebuild_inj (hm : (keys ms).Nodup) (hn : (keys ns).Nodup) :
    enumerate (rebuild ms) = enumerate (rebuild ns) ↔ (visible ms).Perm (visible ns) := by
  have hnodup : ∀ {xs : List (JsString × α)}, (keys xs).Nodup → (keys (rebuild xs)).Nodup := by
    intro xs hx
    refine ((rebuild_perm hx).map Prod.fst).nodup_iff.mpr ?_
    exact hx.sublist ((filter_sublist).map _)
  constructor
  · intro h
    have h₁ := (enumerate_perm (hnodup hm)).trans (rebuild_perm hm)
    have h₂ := (enumerate_perm (hnodup hn)).trans (rebuild_perm hn)
    rw [h] at h₁
    exact h₁.symm.trans h₂
  · intro h
    rw [rebuild_congr hm hn h]

end Members

def strip : Value → Value := Tree.fold .leaf .arr (fun ms => .obj (visible ms))

def normal : Value → Value := Tree.fold .leaf .arr (fun ms => .obj (enumerate (rebuild ms)))

lemma stringify_sortValue (v : Value) : canonicalizeArguments v = encode code (normal v) := by
  rw [canonicalizeArguments, stringify]
  congr 1
  induction v using Tree.ind with
  | leaf a => simp [sortValue, normal]
  | arr items ih =>
    simp only [sortValue, normal, Tree.fold_arr, map_map, Tree.arr.injEq] at ih ⊢
    exact map_congr_left ih
  | obj ms ih =>
    simp only [sortValue, normal, Tree.fold_obj, ← rebuild_mapValues, Tree.obj.injEq] at ih ⊢
    congr 2
    simp only [mapValues, map_map]
    apply map_congr_left
    intro m hm
    exact Prod.ext rfl (ih m hm)

lemma canonicalize_inj (a b : Value) :
    canonicalizeArguments a = canonicalizeArguments b ↔ normal a = normal b := by
  rw [stringify_sortValue, stringify_sortValue]
  exact ⟨encode_injective code_lawful, fun h => by rw [h]⟩

lemma wf_leaf (a : Scalar) : WF (.leaf a) := by
  simp [WF]

lemma wf_arr_iff {items : List Value} : WF (.arr items) ↔ ∀ v ∈ items, WF v := by
  simp only [WF, Tree.fold_arr, mem_map, forall_exists_index, and_imp, forall_apply_eq_imp_iff₂]

lemma wf_obj_iff {ms : List (JsString × Value)} : WF (.obj ms) ↔ (keys ms).Nodup ∧ ∀ m ∈ ms, WF m.2 := by
  rw [← keys_mapValues WF ms]
  simp only [WF, Tree.fold_obj, keys, mapValues, mem_map, forall_exists_index, and_imp,
    forall_apply_eq_imp_iff₂]

lemma same_leaf (a : Scalar) (w : Value) : Same (.leaf a) w ↔ w = .leaf a := by
  simp [Same]

lemma same_arr (vs : List Value) (w : Value) :
    Same (.arr vs) w ↔ ∃ ws, w = .arr ws ∧ List.Forall₂ Same vs ws := by
  simp [Same, forall₂_map_left_iff]

lemma same_obj (ms : List (JsString × Value)) (w : Value) :
    Same (.obj ms) w ↔
      ∃ ns, w = .obj ns ∧ ms.length = ns.length ∧ ∀ m ∈ ms, ∃ x, (m.1, x) ∈ ns ∧ Same m.2 x := by
  simp only [Same, Tree.fold_obj, mapValues, length_map, mem_map, forall_exists_index, and_imp,
    forall_apply_eq_imp_iff₂]

variable {α β : Type} {a b : Value} {ms : List (JsString × α)}

lemma visible_mapValues (f : α → β) (ms : List (JsString × α)) : visible (mapValues f ms) = mapValues f (visible ms) := by
  simp [visible, mapValues, filter_map, Function.comp_def]

lemma normal_arr (vs : List Value) : normal (.arr vs) = .arr (vs.map normal) := by
  simp [normal]

lemma normal_obj (ms : List (JsString × Value)) :
    normal (.obj ms) = .obj (enumerate (rebuild (mapValues normal ms))) := by
  simp [normal]

lemma strip_arr (vs : List Value) : strip (.arr vs) = .arr (vs.map strip) := by
  simp [strip]

lemma strip_obj (ms : List (JsString × Value)) : strip (.obj ms) = .obj (mapValues strip (visible ms)) := by
  simp [strip, visible_mapValues]

lemma mem_mapValues (f : α → β) {k : JsString} {y : β} : (k, y) ∈ mapValues f ms ↔ ∃ x, (k, x) ∈ ms ∧ f x = y := by
  simp only [mapValues, mem_map, Prod.mk.injEq, Prod.exists]
  constructor
  · rintro ⟨l, x, hm, rfl, rfl⟩
    exact ⟨x, hm, rfl⟩
  · rintro ⟨x, hm, rfl⟩
    exact ⟨k, x, hm, rfl, rfl⟩

lemma mapValues_perm_iff (f : α → β) {ns : List (JsString × α)} (hm : (keys ms).Nodup) :
    (mapValues f ms).Perm (mapValues f ns) ↔ ms.length = ns.length ∧ ∀ m ∈ ms, ∃ x, (m.1, x) ∈ ns ∧ f m.2 = f x := by
  have hnd : (mapValues f ms).Nodup := nodup_of_keys (by rwa [keys_mapValues])
  constructor
  · intro h
    refine ⟨by simpa [mapValues] using h.length_eq, ?_⟩
    intro m hmem
    have hin : (m.1, f m.2) ∈ mapValues f ns := h.subset (mem_map_of_mem hmem)
    obtain ⟨x, hx, he⟩ := (mem_mapValues f).mp hin
    exact ⟨x, hx, he.symm⟩
  · rintro ⟨hl, h⟩
    have hsub : mapValues f ms ⊆ mapValues f ns := by
      rintro ⟨k, y⟩ hy
      obtain ⟨x, hx, rfl⟩ := (mem_mapValues f).mp hy
      obtain ⟨z, hz, he⟩ := h _ hx
      exact (mem_mapValues f).mpr ⟨z, hz, he.symm⟩
    refine (subperm_of_subset hnd hsub).perm_of_length_le ?_
    simp [mapValues, hl]

lemma normal_eq_iff (ha : WF a) (hb : WF b) : normal a = normal b ↔ Same (strip a) (strip b) := by
  induction a using Tree.ind generalizing b with
  | leaf a =>
    rw [show strip (.leaf a) = .leaf a by simp [strip], same_leaf]
    cases b with
    | leaf b => simp [normal, strip, eq_comm]
    | arr ws | obj ns => simp [normal, strip]
  | arr vs ih =>
    rw [strip_arr, same_arr, normal_arr]
    cases b with
    | leaf b | obj ns => simp [normal, strip]
    | arr ws =>
      rw [normal_arr, strip_arr]
      simp only [Tree.arr.injEq, exists_eq_left', forall₂_map_left_iff, forall₂_map_right_iff]
      have hv := wf_arr_iff.mp ha
      have hw := wf_arr_iff.mp hb
      clear ha hb
      induction vs generalizing ws with
      | nil => cases ws <;> simp
      | cons v vs ihv =>
        cases ws with
        | nil => simp
        | cons w ws =>
          rw [map_cons, map_cons, List.cons.injEq, forall₂_cons]
          refine and_congr (ih v (by simp) (hv v (by simp)) (hw w (by simp))) ?_
          exact ihv (fun x hx => ih x (by simp [hx])) ws (fun x hx => hv x (by simp [hx]))
            (fun x hx => hw x (by simp [hx]))
  | obj ms ih =>
    rw [strip_obj, same_obj, normal_obj]
    cases b with
    | leaf b | arr ws => simp [normal, strip]
    | obj ns =>
      obtain ⟨hkm, hvm⟩ := wf_obj_iff.mp ha
      obtain ⟨hkn, hvn⟩ := wf_obj_iff.mp hb
      have hkm' : (keys (visible ms)).Nodup := hkm.sublist (List.filter_sublist.map _)
      rw [normal_obj, strip_obj, Tree.obj.injEq, enumerate_rebuild_inj (by rwa [keys_mapValues])
        (by rwa [keys_mapValues]), visible_mapValues, visible_mapValues, mapValues_perm_iff normal hkm']
      simp only [Tree.obj.injEq, exists_eq_left']
      refine and_congr (by simp [mapValues]) ?_
      constructor
      · rintro h ⟨k, y⟩ hy
        obtain ⟨x, hx, rfl⟩ := (mem_mapValues strip).mp hy
        obtain ⟨z, hz, he⟩ := h _ hx
        have hxm := mem_of_mem_filter hx
        have hzm := mem_of_mem_filter hz
        exact ⟨strip z, (mem_mapValues strip).mpr ⟨z, hz, rfl⟩, (ih _ hxm (hvm _ hxm) (hvn _ hzm)).mp he⟩
      · rintro h ⟨k, x⟩ hx
        obtain ⟨y, hy, hsame⟩ := h (k, strip x) ((mem_mapValues strip).mpr ⟨x, hx, rfl⟩)
        obtain ⟨z, hz, rfl⟩ := (mem_mapValues strip).mp hy
        have hxm := mem_of_mem_filter hx
        have hzm := mem_of_mem_filter hz
        exact ⟨z, hz, (ih _ hxm (hvm _ hxm) (hvn _ hzm)).mpr hsame⟩

lemma keys_visible (ms : List (JsString × α)) : keys (visible ms) = (keys ms).filter (· ≠ protoKey) := by
  simp [keys, visible, filter_map, Function.comp_def]

lemma same_strip (ha : WF a) (h : Same a b) : Same (strip a) (strip b) := by
  induction a using Tree.ind generalizing b with
  | leaf a =>
    rw [(same_leaf a b).mp h]
    simp [strip, same_leaf]
  | arr vs ih =>
    obtain ⟨ws, rfl, hall⟩ := (same_arr vs b).mp h
    rw [strip_arr, strip_arr, same_arr]
    refine ⟨_, rfl, ?_⟩
    rw [forall₂_map_left_iff, forall₂_map_right_iff]
    have hv := wf_arr_iff.mp ha
    clear ha h
    induction hall with
    | nil => exact .nil
    | cons hvw _ ihv =>
      refine .cons (ih _ (by simp) (hv _ (by simp)) hvw) (ihv (fun x hx => ih x (by simp [hx])) ?_)
      exact fun x hx => hv x (by simp [hx])
  | obj ms ih =>
    obtain ⟨ns, rfl, hl, hall⟩ := (same_obj ms b).mp h
    obtain ⟨hkm, hvm⟩ := wf_obj_iff.mp ha
    rw [strip_obj, strip_obj, same_obj]
    refine ⟨_, rfl, ?_, ?_⟩
    · have hsub : keys ms ⊆ keys ns := by
        intro k hk
        obtain ⟨m, hm, rfl⟩ := List.mem_map.mp hk
        obtain ⟨x, hx, _⟩ := hall m hm
        exact List.mem_map.mpr ⟨_, hx, rfl⟩
      have hperm : (keys ms).Perm (keys ns) :=
        (subperm_of_subset hkm hsub).perm_of_length_le (by simp [keys, hl])
      have hlen := (hperm.filter (· ≠ protoKey)).length_eq
      rw [← keys_visible, ← keys_visible] at hlen
      simpa [keys, mapValues] using hlen
    · rintro ⟨k, y⟩ hy
      obtain ⟨x, hx, rfl⟩ := (mem_mapValues strip).mp hy
      have hxm := mem_of_mem_filter hx
      obtain ⟨z, hz, hsame⟩ := hall _ hxm
      have hzv : (k, z) ∈ visible ns := List.mem_filter.mpr ⟨hz, (List.mem_filter.mp hx).2⟩
      exact ⟨strip z, (mem_mapValues strip).mpr ⟨z, hzv, rfl⟩, ih _ hxm (hvm _ hxm) hsame⟩

/-- The two values differ, but in nothing else than members named `__proto__`. -/
def DifferOnlyInProto (a b : JsonValue) : Prop :=
  ¬ Same a.value b.value ∧ Same (strip a.value) (strip b.value)

theorem digest_binds_arguments_iff {D : Type} (sha256 : Text → D) (hsha : Function.Injective sha256) (a b : JsonValue) :
    ((canonicalizeArguments a.value = canonicalizeArguments b.value ↔ Same a.value b.value) ∧
      (computeArgumentDigest sha256 (canonicalizeArguments a.value) =
        computeArgumentDigest sha256 (canonicalizeArguments b.value) ↔ Same a.value b.value)) ↔
      ¬ DifferOnlyInProto a b := by
  have hd : computeArgumentDigest sha256 (canonicalizeArguments a.value) =
      computeArgumentDigest sha256 (canonicalizeArguments b.value) ↔
        canonicalizeArguments a.value = canonicalizeArguments b.value := hsha.eq_iff
  have hc : canonicalizeArguments a.value = canonicalizeArguments b.value ↔ Same (strip a.value) (strip b.value) :=
    (canonicalize_inj _ _).trans (normal_eq_iff a.wf b.wf)
  have hs : Same a.value b.value → Same (strip a.value) (strip b.value) := same_strip a.wf
  rw [hd, hc, and_self, DifferOnlyInProto]
  constructor
  · rintro h ⟨hne, hsame⟩
    exact hne (h.mp hsame)
  · intro h
    refine ⟨fun hsame => ?_, hs⟩
    by_contra hne
    exact h ⟨hne, hsame⟩

def emptyObject : JsonValue := ⟨.obj [], by simp [wf_obj_iff, keys]⟩

def protoObject : JsonValue :=
  ⟨.obj [(protoKey, .leaf (.bool true))], by simp [wf_obj_iff, wf_leaf, keys]⟩

def forwardObject : JsonValue :=
  ⟨.obj [(asciiUnits ['a'], .arr []), (asciiUnits ['7'], .leaf .null)],
    by simp [wf_obj_iff, wf_arr_iff, wf_leaf, keys, asciiUnits]⟩

def backwardObject : JsonValue :=
  ⟨.obj [(asciiUnits ['7'], .leaf .null), (asciiUnits ['a'], .arr [])],
    by simp [wf_obj_iff, wf_arr_iff, wf_leaf, keys, asciiUnits]⟩

theorem digest_binds_reordered_arguments :
    (canonicalizeArguments forwardObject.value = canonicalizeArguments backwardObject.value ↔
      Same forwardObject.value backwardObject.value) := by
  refine ((digest_binds_arguments_iff id Function.injective_id forwardObject backwardObject).mpr ?_).1
  exact fun h => h.1 (by simp [forwardObject, backwardObject, same_obj, same_arr, same_leaf])

/-- An object with the single member `__proto__` has the canonical text of the empty object. -/
theorem proto_member_is_lost :
    canonicalizeArguments emptyObject.value = canonicalizeArguments protoObject.value ∧
      ¬ Same emptyObject.value protoObject.value := by
  constructor
  · decide +kernel
  · simp [emptyObject, protoObject, same_obj]

end Breeze.Approval.ArgumentBinding
