import Breeze.Lib.HtmlQuoted
import Breeze.Lib.Stateful
import Breeze.Rollback.Signing

/-! When the agent rebuilds the bytes that the server has signed. -/

namespace Breeze.Rollback.SignedBytes

open Breeze.Lib Breeze.Lib.Decimal Breeze.Lib.JsonText Breeze.Lib.QuotedText Breeze.Lib.IntegerText List
open Breeze.Lib.Quoted (JsString codePoints)
open Breeze.Lib.EscapedText (isWellFormed utf16_decoded_iff)
open Breeze.Lib.GoValue (marshalCode byteOrder byteOrder_injective)
open Breeze.Lib.HtmlQuoted
open Breeze.Lib.Stateful (bind_ok)
open Breeze.Lib.Utf8 (Bytes)
open Breeze.Approval.Canonicalize (code code_lawful enumerate)
open Breeze.Approval.ArgumentBinding (enumerate_perm lookup_mapValues ownKeys_mapValues)
open Breeze.Lib.Checksum (Sum hexText hexText_injective hexText_length lengthSum)
open Breeze.Topology.Canonical (Value JsValue toJs jsScalar serverCode serverCode_int textEncoder)
open Signing

section Trees

variable {K A : Type}

def stringsBy (text : A → Option K) : Tree K A → List K :=
  Tree.fold (fun a => (text a).toList) List.flatten fun ms => ms.flatMap fun m => m.1 :: m.2

@[simp] lemma stringsBy_leaf (text : A → Option K) (a : A) : stringsBy text (.leaf a) = (text a).toList := by
  rw [stringsBy, Tree.fold_leaf]

@[simp] lemma stringsBy_arr (text : A → Option K) (items : List (Tree K A)) :
    stringsBy text (.arr items) = items.flatMap (stringsBy text) := by
  rw [stringsBy, Tree.fold_arr, flatMap_def]

@[simp] lemma stringsBy_obj (text : A → Option K) (ms : List (K × Tree K A)) :
    stringsBy text (.obj ms) = ms.flatMap fun m => m.1 :: stringsBy text m.2 := by
  rw [stringsBy, Tree.fold_obj, mapValues, flatMap_map]

lemma mem_stringsBy {text : A → Option K} {v : Tree K A} {k : K} :
    k ∈ stringsBy text v ↔ k ∈ v.keys ∨ ∃ a ∈ v.leaves, text a = some k := by
  induction v using Tree.ind with
  | leaf a => simp
  | arr items ih =>
    simp only [stringsBy_arr, Tree.keys_arr, Tree.leaves_arr, mem_flatMap]
    constructor
    · rintro ⟨v, hv, hk⟩
      rcases (ih v hv).mp hk with h | ⟨a, ha, h⟩
      · exact Or.inl ⟨v, hv, h⟩
      · exact Or.inr ⟨a, ⟨v, hv, ha⟩, h⟩
    · rintro (⟨v, hv, h⟩ | ⟨a, ⟨v, hv, ha⟩, h⟩)
      · exact ⟨v, hv, (ih v hv).mpr (Or.inl h)⟩
      · exact ⟨v, hv, (ih v hv).mpr (Or.inr ⟨a, ha, h⟩)⟩
  | obj ms ih =>
    simp only [stringsBy_obj, Tree.keys_obj, Tree.leaves_obj, mem_flatMap, mem_cons]
    constructor
    · rintro ⟨m, hm, rfl | hk⟩
      · exact Or.inl ⟨m, hm, Or.inl rfl⟩
      · rcases (ih m hm).mp hk with h | ⟨a, ha, h⟩
        · exact Or.inl ⟨m, hm, Or.inr h⟩
        · exact Or.inr ⟨a, ⟨m, hm, ha⟩, h⟩
    · rintro (⟨m, hm, rfl | h⟩ | ⟨a, ⟨m, hm, ha⟩, h⟩)
      · exact ⟨m, hm, Or.inl rfl⟩
      · exact ⟨m, hm, Or.inr ((ih m hm).mpr (Or.inl h))⟩
      · exact ⟨m, hm, Or.inr ((ih m hm).mpr (Or.inr ⟨a, ha, h⟩))⟩

@[simp] def jsText : Approval.Canonicalize.Scalar → Option JsString
  | .str s => some s
  | _ => none

@[simp] def goText : GoValue.Scalar → Option Text
  | .str t => some t
  | _ => none

lemma infix_string {v : JsValue} {s : JsString} (h : s ∈ stringsBy jsText v) : Quoted.quote s <:+: encode code v := by
  rcases mem_stringsBy.mp h with h | ⟨a, ha, he⟩
  · exact infix_key (C := code) h
  · cases a <;> cases he
    exact infix_leaf (C := code) ha

lemma word_html {c : Char} (h : GoJson.isWordChar c = true) : isHtml c = false := by
  refine Bool.eq_false_iff.mpr fun hc => ?_
  have hword : ∀ n ∈ [0x3C, 0x3E, 0x26, 0x2028, 0x2029], GoJson.isWordChar (Char.ofNat n) = false := by decide
  have hn := hword c.toNat (by simpa using html_cases hc)
  rw [Char.ofNat_toNat, h] at hn
  cases hn

lemma marshal_html (w : Value) : ∀ c ∈ encode marshalCode w, isHtml c = false := by
  refine encode_chars (by simp [isHtml]) (fun a _ => ?_) fun k _ => quote_html _
  cases a with
  | null => exact fun c hc => word_html (List.all_eq_true.mp (by rfl : "null".toList.all GoJson.isWordChar = true) c hc)
  | bool b =>
    have hword : (GoValue.literalText b).all GoJson.isWordChar = true := by cases b <;> rfl
    exact fun c hc => word_html (List.all_eq_true.mp hword c hc)
  | int n => exact fun c hc => word_html (GoValue.intText_word n c hc)
  | str t => exact quote_html _

lemma marshal_eq_toJs {w : Value} (hkept : ∀ n, .int n ∈ w.leaves → isKept n = true)
    (hplain : ∀ t ∈ stringsBy goText w, isPlain t = true) : encode marshalCode w = encode code (toJs w) := by
  rw [toJs, encode_relabel]
  refine encode_congr (fun a ha => ?_) fun k hk => quote_plain (hplain k (mem_stringsBy.mpr (Or.inl hk)))
  cases a with
  | null => rfl
  | bool b => cases b <;> rfl
  | int n => exact ((serverCode_int n).mpr (hkept n ha)).symm
  | str t => exact quote_plain (hplain t (mem_stringsBy.mpr (Or.inr ⟨_, ha, rfl⟩)))

lemma encode_agree_iff {v : JsValue} {w : Value} (hkept : ∀ n, .int n ∈ w.leaves → isKept n = true)
    (hread : ∀ t ∈ stringsBy goText w, ∃ s ∈ stringsBy jsText v, t = decoded s) :
    encode code v = encode marshalCode w ↔ v = toJs w ∧ ∀ t ∈ stringsBy goText w, isPlain t = true := by
  constructor
  · intro h
    have hplain : ∀ t ∈ stringsBy goText w, isPlain t = true := by
      intro t ht
      obtain ⟨s, hs, rfl⟩ := hread t ht
      refine isPlain_iff.mpr fun c hc => Bool.eq_false_iff.mpr fun hhtml => ?_
      have hmem := (infix_string hs).subset (mem_quote_html hhtml hc)
      rw [h] at hmem
      rw [marshal_html w c hmem] at hhtml
      cases hhtml
    refine ⟨?_, hplain⟩
    apply encode_injective code_lawful
    rw [h, marshal_eq_toJs hkept hplain]
  · rintro ⟨rfl, hplain⟩
    exact (marshal_eq_toJs hkept hplain).symm

end Trees

section Order

variable {α β : Type}

lemma enumerate_mapValues (f : α → β) (ms : List (JsString × α)) : enumerate (mapValues f ms) = mapValues f (enumerate ms) := by
  have hmap : mapValues f (enumerate ms) = (enumerate ms).map fun m => (m.1, f m.2) := rfl
  rw [enumerate, ownKeys_mapValues, hmap, enumerate, map_filterMap]
  refine filterMap_congr fun k _ => ?_
  rw [lookup_mapValues, Option.map_map, Option.map_map]
  rfl

lemma entries_mapValues (locale : Collation) (f : α → β) (ms : List (JsString × α)) :
    entries locale (mapValues f ms) = mapValues f (entries locale ms) := by
  rw [entries, enumerate_mapValues]
  exact (map_insertionSort _ _ (fun m : JsString × α => (m.1, f m.2)) (enumerate ms) fun _ _ _ _ => Iff.rfl).symm

lemma entries_perm (locale : Collation) {ms : List (JsString × α)} (h : (ms.map Prod.fst).Nodup) :
    (entries locale ms).Perm ms := (perm_insertionSort _ _).trans (enumerate_perm h)

def before : Text → Text → Bool
  | a :: s, b :: t =>
    if a = b then a.isAlphanum && before s t
    else (a.isLower || a == '-') && (b.isLower || b == '-') && decide (a < b) && (s ++ t).all Char.isAlphanum
  | _, _ => false

lemma compare_before (locale : Collation) {s t : Text} (h : before s t = true) {p : Text} (hp : ∀ c ∈ p, c.isAlphanum) :
    0 < locale.compare (utf16 (p ++ t)) (utf16 (p ++ s)) := by
  induction s, t using before.induct generalizing p with
  | case1 s b t ih =>
    rw [before, if_pos rfl, Bool.and_eq_true] at h
    have hrest := ih h.2 (p := p ++ [b]) (List.forall_mem_append.mpr ⟨hp, by simpa using h.1⟩)
    rwa [append_assoc, append_assoc] at hrest
  | case2 a s b t hne =>
    rw [before, if_neg hne] at h
    simp only [Bool.and_eq_true, Bool.or_eq_true, beq_iff_eq, decide_eq_true_eq, all_eq_true] at h
    obtain ⟨⟨⟨ha, hb⟩, hlt⟩, hst⟩ := h
    refine locale.letters (fun c hc => ?_) ha hb hlt
    rw [append_assoc, mem_append] at hc
    exact hc.elim (hp c) (hst c)
  | case3 s t hs =>
    unfold before at h
    split at h
    · exact absurd rfl (hs _ _ _ _ rfl)
    · cases h

lemma entries_eq (locale : Collation) {ms ns : List (JsString × α)} (hperm : (enumerate ms).Perm ns)
    (hsorted : ns.Pairwise fun a b => 0 < locale.compare b.1 a.1) : entries locale ms = ns := by
  have htotal : Std.Total fun a b : JsString × α => locale.compare a.1 b.1 ≤ 0 := ⟨fun a b => locale.total a.1 b.1⟩
  have htrans : IsTrans (JsString × α) fun a b => locale.compare a.1 b.1 ≤ 0 := ⟨fun _ _ _ => locale.trans⟩
  have hle : ns.Pairwise fun a b => locale.compare a.1 b.1 ≤ 0 :=
    hsorted.imp fun {a b} h => (locale.total a.1 b.1).resolve_right (by omega)
  refine ((perm_insertionSort _ _).trans hperm).eq_of_pairwise (fun a b ha hb hab hba => ?_)
    (pairwise_insertionSort _ _) hle
  by_contra hne
  have hmem := ((perm_insertionSort _ _).trans hperm).subset ha
  let apart (a b : JsString × α) : Prop := ¬(locale.compare a.1 b.1 ≤ 0 ∧ locale.compare b.1 a.1 ≤ 0)
  have : Std.Symm apart := ⟨fun _ _ h h' => h h'.symm⟩
  have hapart : ns.Pairwise apart := hsorted.imp fun h h' => absurd h (not_lt.mpr h'.2)
  exact hapart.forall hmem hb hne ⟨hab, hba⟩

end Order

section Documents

def orderedArtifact (a : Artifact JsString) : JsValue :=
  .obj [(name "component", .leaf (.str a.component)), (name "currentVersion", .leaf (.str a.currentVersion)),
    (name "downloadUrl", .leaf (.str a.downloadUrl)), (name "sha256", .leaf (.str a.sha256)),
    (name "size", .leaf (.num (ofInt a.size))), (name "targetVersion", .leaf (.str a.targetVersion))]

def orderedGoArtifact (a : Artifact Text) : Value :=
  .obj [("component".toList, .leaf (.str a.component)), ("currentVersion".toList, .leaf (.str a.currentVersion)),
    ("downloadUrl".toList, .leaf (.str a.downloadUrl)), ("sha256".toList, .leaf (.str a.sha256)),
    ("size".toList, .leaf (.int a.size)), ("targetVersion".toList, .leaf (.str a.targetVersion))]

section Server

variable (locale : Collation)

lemma canonicalJson_leaf (a : Approval.Canonicalize.Scalar) : canonicalJson locale (.leaf a) = encode code (.leaf a) := by
  rw [canonicalJson, Tree.fold_leaf, encode_leaf]
  rfl

lemma canonicalJson_obj (ms : List (JsString × JsValue)) :
    canonicalJson locale (.obj ms) =
      '{' :: (joined ((entries locale ms).map fun m => Quoted.quote m.1 ++ ':' :: canonicalJson locale m.2) ++ ['}']) := by
  rw [canonicalJson, Tree.fold_obj, ← canonicalJson, entries_mapValues, mapValues, map_map]
  rfl

lemma canonicalJson_eq_encode {ms ns : List (JsString × JsValue)} (h : entries locale ms = ns)
    (hvalue : ∀ m ∈ ns, canonicalJson locale m.2 = encode code m.2) :
    canonicalJson locale (.obj ms) = encode code (.obj ns) := by
  have hmembers : ∀ m ∈ ns, (Quoted.quote m.1 ++ ':' :: canonicalJson locale m.2) = memberText code m := by
    intro m hm
    rw [hvalue m hm]
    rfl
  rw [canonicalJson_obj, h, encode_obj, map_congr_left hmembers]

lemma canonicalJson_named (ms ns : List (String × Approval.Canonicalize.Scalar)) (hperm : ms.Perm ns)
    (hsorted : (ns.map Prod.fst).Pairwise fun a b => before a.toList b.toList = true)
    (hnodup : (ms.map fun m => name m.1).Nodup) :
    canonicalJson locale (.obj (ms.map fun m => (name m.1, .leaf m.2))) =
      encode code (.obj (ns.map fun m => (name m.1, .leaf m.2))) := by
  refine canonicalJson_eq_encode locale (entries_eq locale ?_ ?_) fun m hm => ?_
  · refine (enumerate_perm ?_).trans (hperm.map _)
    rwa [Approval.ArgumentBinding.keys, map_map]
  · rw [pairwise_map] at hsorted ⊢
    exact hsorted.imp fun h => compare_before locale h (p := []) (by simp)
  · obtain ⟨n, -, rfl⟩ := List.mem_map.mp hm
    exact canonicalJson_leaf locale n.2

lemma canonicalJson_version (v : ComponentVersion JsString) :
    canonicalJson locale (versionValue v) = encode code (versionValue v) :=
  canonicalJson_named locale [("current", .str v.current), ("target", .str v.target)] _ (List.Perm.refl _)
    (by simp only [map_cons, map_nil]; decide) (by simp only [map_cons, map_nil]; decide +kernel)

lemma canonicalJson_artifact (a : Artifact JsString) :
    canonicalJson locale (artifactValue a) = encode code (orderedArtifact a) :=
  canonicalJson_named locale
    [("component", .str a.component), ("currentVersion", .str a.currentVersion), ("targetVersion", .str a.targetVersion),
      ("downloadUrl", .str a.downloadUrl), ("sha256", .str a.sha256), ("size", .num (ofInt a.size))]
    [("component", .str a.component), ("currentVersion", .str a.currentVersion), ("downloadUrl", .str a.downloadUrl),
      ("sha256", .str a.sha256), ("size", .num (ofInt a.size)), ("targetVersion", .str a.targetVersion)]
    (.cons _ (.cons _ (perm_append_singleton _ _).symm))
    (by simp only [map_cons, map_nil]; decide) (by simp only [map_cons, map_nil]; decide +kernel)

lemma canonicalJson_components (cs : List (JsString × ComponentVersion JsString)) :
    canonicalJson locale (componentsValue cs) = encode code (componentsValue (entries locale cs)) := by
  refine canonicalJson_eq_encode locale (entries_mapValues locale versionValue cs) fun m hm => ?_
  obtain ⟨c, -, rfl⟩ := List.mem_map.mp hm
  exact canonicalJson_version locale c.2

lemma canonicalJson_artifacts (as : List (Artifact JsString)) :
    canonicalJson locale (artifactsValue as) = encode code (.arr (as.map orderedArtifact)) := by
  have hitems : as.map (canonicalJson locale ∘ artifactValue) = as.map (encode code ∘ orderedArtifact) :=
    map_congr_left fun a _ => canonicalJson_artifact locale a
  rw [artifactsValue, canonicalJson, Tree.fold_arr, ← canonicalJson, encode_arr, map_map, map_map, hitems]

end Server

section Agent

lemma byKey_eq {α : Type} {ms ns : List (Text × α)} (hperm : ms.Perm ns) (hnodup : (ms.map Prod.fst).Nodup)
    (hsorted : ns.Pairwise fun a b => byteOrder a.1 ≤ byteOrder b.1) : byKey byteOrder ms = ns :=
  (byKey_eq_of_perm byteOrder hnodup (fun _ _ _ _ h => byteOrder_injective h) hperm).trans hsorted.insertionSort_eq

lemma sorted_version (v : ComponentVersion Text) : (goVersion v).sorted byteOrder = goVersion v := by
  rw [goVersion, Tree.sorted_obj]
  rfl

lemma sorted_artifact (a : Artifact Text) : (goArtifact a).sorted byteOrder = orderedGoArtifact a := by
  rw [goArtifact, Tree.sorted_obj]
  rfl

lemma sorted_components (cs : List (Text × ComponentVersion Text)) :
    (goComponents cs).sorted byteOrder = goComponents (byKey byteOrder cs) := by
  have hvalues : mapValues (Tree.sorted byteOrder) (mapValues goVersion cs) = mapValues goVersion cs := by
    rw [mapValues, mapValues, map_map]
    exact map_congr_left fun c _ => Prod.ext rfl (sorted_version c.2)
  rw [goComponents, Tree.sorted_obj, hvalues, mapValues,
    byKey_map byteOrder (fun c : Text × ComponentVersion Text => (c.1, goVersion c.2)) fun _ _ => rfl]
  rfl

lemma sorted_artifacts (as : List (Artifact Text)) : (goArtifacts as).sorted byteOrder = .arr (as.map orderedGoArtifact) := by
  have hitems : as.map (Tree.sorted byteOrder ∘ goArtifact) = as.map orderedGoArtifact :=
    map_congr_left fun a _ => sorted_artifact a
  rw [goArtifacts, Tree.sorted_arr, map_map, hitems]

end Agent

section Agreement

def jsVersion (v : ComponentVersion Text) : ComponentVersion JsString := ⟨utf16 v.current, utf16 v.target⟩

def jsComponent (c : Text × ComponentVersion Text) : JsString × ComponentVersion JsString := (utf16 c.1, jsVersion c.2)

def jsArtifact (a : Artifact Text) : Artifact JsString where
  component := utf16 a.component
  currentVersion := utf16 a.currentVersion
  targetVersion := utf16 a.targetVersion
  downloadUrl := utf16 a.downloadUrl
  sha256 := utf16 a.sha256
  size := a.size

lemma toJs_components (cs : List (Text × ComponentVersion Text)) : toJs (goComponents cs) = componentsValue (cs.map jsComponent) := by
  rw [toJs, goComponents, componentsValue, Tree.relabel_obj, mapValues, mapValues, map_map, map_map]
  simp [goVersion, versionValue, jsComponent, jsVersion, jsScalar, name]

lemma toJs_artifacts {as : List (Artifact Text)} (h : ∀ a ∈ as, isKept a.size = true) :
    toJs (.arr (as.map orderedGoArtifact)) = .arr ((as.map jsArtifact).map orderedArtifact) := by
  rw [toJs, Tree.relabel_arr, map_map, map_map]
  refine congrArg Tree.arr (map_congr_left fun a ha => ?_)
  simp [orderedGoArtifact, orderedArtifact, jsArtifact, not_infinite_of_kept (h a ha), jsScalar, name]

lemma componentsValue_injective {cs ds : List (JsString × ComponentVersion JsString)}
    (h : componentsValue cs = componentsValue ds) : cs = ds := by
  refine List.map_injective_iff.mpr (fun c d hcd => ?_) (Tree.obj.inj h)
  obtain ⟨k, current, target⟩ := c
  obtain ⟨l, current', target'⟩ := d
  simpa [versionValue] using hcd

def isVerifiable (s : JsString) : Bool := isWellFormed s && isPlain (decoded s)

lemma isVerifiable_iff {s : JsString} : isVerifiable s = true ↔ utf16 (decoded s) = s ∧ isPlain (decoded s) = true := by
  rw [isVerifiable, Bool.and_eq_true, utf16_decoded_iff]

def componentStrings (c : JsString × ComponentVersion JsString) : List JsString := c.1 :: versionStrings c.2

lemma jsComponent_received {c : JsString × ComponentVersion JsString} :
    jsComponent (receivedComponent c) = c ↔ ∀ s ∈ componentStrings c, utf16 (decoded s) = s := by
  obtain ⟨k, current, target⟩ := c
  simp [jsComponent, jsVersion, receivedComponent, receivedVersion, componentStrings, versionStrings]

lemma received_jsComponent (c : Text × ComponentVersion Text) : receivedComponent (jsComponent c) = c := by
  obtain ⟨k, current, target⟩ := c
  simp [jsComponent, jsVersion, receivedComponent, receivedVersion, decoded_utf16]

lemma strings_components (cs : List (JsString × ComponentVersion JsString)) :
    stringsBy jsText (componentsValue cs) =
      cs.flatMap fun c => [c.1, name "current", c.2.current, name "target", c.2.target] := by
  simp [componentsValue, mapValues, versionValue, flatMap_map]

lemma strings_goComponents (cs : List (Text × ComponentVersion Text)) :
    stringsBy goText (goComponents cs) =
      cs.flatMap fun c => [c.1, "current".toList, c.2.current, "target".toList, c.2.target] := by
  simp [goComponents, mapValues, goVersion, flatMap_map]

section Components

variable {locale : Collation} {cs : List (JsString × ComponentVersion JsString)}

def readComponents (cs : List (JsString × ComponentVersion JsString)) : List (Text × ComponentVersion Text) :=
  byKey byteOrder (readMap ((enumerate cs).map receivedComponent))

lemma readComponents_subset (locale : Collation) {c : Text × ComponentVersion Text} (h : c ∈ readComponents cs) :
    ∃ e ∈ entries locale cs, c = receivedComponent e := by
  have hread := pwFilter_subset _ ((byKey_perm byteOrder _).subset h)
  obtain ⟨e, he, rfl⟩ := List.mem_map.mp hread
  exact ⟨e, (perm_insertionSort _ _).symm.subset he, rfl⟩

lemma readComponents_eq (hnodup : (cs.map Prod.fst).Nodup)
    (hwell : ∀ c ∈ cs, ∀ s ∈ componentStrings c, utf16 (decoded s) = s)
    (hsorted : (entries locale cs).Pairwise fun a b => byteOrder (decoded a.1) ≤ byteOrder (decoded b.1)) :
    readComponents cs = (entries locale cs).map receivedComponent := by
  have hkeys : (((enumerate cs).map receivedComponent).map Prod.fst).Nodup := by
    have hperm := enumerate_perm hnodup
    rw [map_map, ((hperm.map _).nodup_iff : _ ↔ (cs.map (Prod.fst ∘ receivedComponent)).Nodup)]
    refine List.Nodup.of_map utf16 ?_
    rw [map_map]
    convert hnodup using 1
    exact map_congr_left fun c hc => hwell c hc c.1 mem_cons_self
  have hmap : readMap ((enumerate cs).map receivedComponent) = (enumerate cs).map receivedComponent :=
    List.pwFilter_eq_self.mpr (List.pairwise_map.mp hkeys)
  rw [readComponents, hmap]
  exact byKey_eq ((perm_insertionSort _ _).symm.map _) hkeys (List.pairwise_map.mpr hsorted)

lemma entries_eq_read_iff (hnodup : (cs.map Prod.fst).Nodup) :
    entries locale cs = (readComponents cs).map jsComponent ↔
      (∀ c ∈ cs, ∀ s ∈ componentStrings c, utf16 (decoded s) = s) ∧
        (entries locale cs).Pairwise fun a b => byteOrder (decoded a.1) ≤ byteOrder (decoded b.1) := by
  have hperm := entries_perm locale hnodup
  constructor
  · intro h
    have hread : (entries locale cs).map receivedComponent = readComponents cs := by
      rw [h, map_map]
      exact (map_congr_left fun c _ => received_jsComponent c).trans (map_id _)
    refine ⟨fun c hc => jsComponent_received.mp ?_, ?_⟩
    · have hmem := hperm.symm.subset hc
      rw [h] at hmem
      obtain ⟨g, -, rfl⟩ := List.mem_map.mp hmem
      rw [received_jsComponent]
    · have hpair := byKey_pairwise byteOrder (readMap ((enumerate cs).map receivedComponent))
      rw [← readComponents, ← hread, pairwise_map] at hpair
      exact hpair
  · rintro ⟨hwell, hsorted⟩
    rw [readComponents_eq hnodup hwell hsorted, map_map]
    refine (map_id _).symm.trans (map_congr_left fun c hc => ?_)
    exact (jsComponent_received.mpr (hwell c (hperm.subset hc))).symm

variable {es : List (JsString × ComponentVersion JsString)}

lemma strings_received_components : stringsBy goText (goComponents (es.map receivedComponent)) =
    (stringsBy jsText (componentsValue es)).map decoded := by
  simp [strings_goComponents, strings_components, receivedComponent, receivedVersion, flatMap_map, map_flatMap, name,
    decoded_utf16]

lemma plain_components_iff : (∀ t ∈ stringsBy goText (goComponents (es.map receivedComponent)), isPlain t = true) ↔
      ∀ e ∈ es, ∀ s ∈ componentStrings e, isPlain (decoded s) = true := by
  have hcurrent : isPlain (decoded (name "current")) = true := by decide
  have htarget : isPlain (decoded (name "target")) = true := by decide
  simp only [strings_received_components, strings_components, forall_mem_map, forall_mem_flatMap, componentStrings,
    versionStrings, forall_mem_cons, hcurrent, htarget, true_and]

lemma read_from_entries {t : Text} (ht : t ∈ stringsBy goText (goComponents (readComponents cs))) :
    ∃ s ∈ stringsBy jsText (componentsValue (entries locale cs)), t = decoded s := by
  rw [strings_goComponents, mem_flatMap] at ht
  obtain ⟨c, hc, ht⟩ := ht
  obtain ⟨e, he, rfl⟩ := readComponents_subset locale hc
  have hread : t ∈ stringsBy goText (goComponents ((entries locale cs).map receivedComponent)) := by
    rw [strings_goComponents]
    exact List.mem_flatMap.mpr ⟨_, mem_map_of_mem he, ht⟩
  rw [strings_received_components] at hread
  obtain ⟨s, hs, rfl⟩ := List.mem_map.mp hread
  exact ⟨s, hs, rfl⟩

theorem components_agree_iff (locale : Collation) (hnodup : (cs.map Prod.fst).Nodup) :
    canonicalJson locale (componentsValue cs) = encode marshalCode (goComponents (readComponents cs)) ↔
      (∀ c ∈ cs, ∀ s ∈ componentStrings c, isVerifiable s = true) ∧
        (entries locale cs).Pairwise fun a b => byteOrder (decoded a.1) ≤ byteOrder (decoded b.1) := by
  have hkept : ∀ n, .int n ∈ (goComponents (readComponents cs)).leaves → isKept n = true := by
    intro n hn
    simp [goComponents, mapValues, goVersion] at hn
  have hperm := entries_perm locale hnodup
  rw [canonicalJson_components, encode_agree_iff hkept fun t => read_from_entries, toJs_components]
  constructor
  · rintro ⟨hvalue, hplain⟩
    obtain ⟨hwell, hsorted⟩ := (entries_eq_read_iff hnodup).mp (componentsValue_injective hvalue)
    rw [readComponents_eq hnodup hwell hsorted, plain_components_iff] at hplain
    exact ⟨fun c hc s hs => isVerifiable_iff.mpr ⟨hwell c hc s hs, hplain c (hperm.symm.subset hc) s hs⟩, hsorted⟩
  · rintro ⟨hverifiable, hsorted⟩
    have hwell : ∀ c ∈ cs, ∀ s ∈ componentStrings c, utf16 (decoded s) = s :=
      fun c hc s hs => (isVerifiable_iff.mp (hverifiable c hc s hs)).1
    refine ⟨congrArg componentsValue ((entries_eq_read_iff hnodup).mpr ⟨hwell, hsorted⟩), ?_⟩
    rw [readComponents_eq hnodup hwell hsorted, plain_components_iff]
    exact fun c hc s hs => (isVerifiable_iff.mp (hverifiable c (hperm.subset hc) s hs)).2

end Components

section Artifacts

lemma orderedArtifact_received {a : Artifact JsString} :
    orderedArtifact a = orderedArtifact (jsArtifact (receivedArtifact a)) ↔ ∀ s ∈ artifactStrings a, utf16 (decoded s) = s := by
  simp only [orderedArtifact, jsArtifact, receivedArtifact, artifactStrings, forall_mem_cons, Tree.obj.injEq, List.cons.injEq,
    Prod.mk.injEq, Tree.leaf.injEq, Approval.Canonicalize.Scalar.str.injEq, true_and, and_true]
  simp only [eq_comm (a := utf16 _)]
  tauto

def artifactNames : List String := ["component", "currentVersion", "downloadUrl", "sha256", "size", "targetVersion"]

variable {as : List (Artifact JsString)}

lemma strings_received_artifacts : stringsBy goText (.arr ((as.map receivedArtifact).map orderedGoArtifact)) =
    (stringsBy jsText (.arr (as.map orderedArtifact))).map decoded := by
  simp [orderedGoArtifact, orderedArtifact, receivedArtifact, flatMap_map, map_flatMap, name, decoded_utf16]

lemma mem_strings_artifacts {s : JsString} : s ∈ stringsBy jsText (.arr (as.map orderedArtifact)) ↔
      ∃ a ∈ as, s ∈ artifactNames.map name ∨ s ∈ artifactStrings a := by
  rw [stringsBy_arr, flatMap_map, mem_flatMap]
  refine exists_congr fun a => and_congr_right fun _ => ?_
  simp only [orderedArtifact, stringsBy_obj, stringsBy_leaf, jsText, artifactNames, artifactStrings, flatMap_cons, flatMap_nil,
    Option.toList_some, Option.toList_none, map_cons, map_nil, cons_append, nil_append, append_nil,
    mem_cons, not_mem_nil, or_false]
  constructor
  · rintro (h | h | h | h | h | h | h | h | h | h | h) <;> simp only [h, true_or, or_true]
  · rintro ((h | h | h | h | h | h) | h | h | h | h | h) <;> simp only [h, true_or, or_true]

lemma plain_artifacts_iff :
    (∀ t ∈ stringsBy goText (.arr ((as.map receivedArtifact).map orderedGoArtifact)), isPlain t = true) ↔
      ∀ a ∈ as, ∀ s ∈ artifactStrings a, isPlain (decoded s) = true := by
  rw [strings_received_artifacts, forall_mem_map]
  constructor
  · exact fun h a ha s hs => h s (mem_strings_artifacts.mpr ⟨a, ha, Or.inr hs⟩)
  · intro h s hs
    obtain ⟨a, ha, hname | hs⟩ := mem_strings_artifacts.mp hs
    · have hplain : ∀ s ∈ artifactNames.map name, isPlain (decoded s) = true := by decide +kernel
      exact hplain s hname
    · exact h a ha s hs

lemma read_from_artifacts {t : Text} (ht : t ∈ stringsBy goText (.arr ((as.map receivedArtifact).map orderedGoArtifact))) :
    ∃ s ∈ stringsBy jsText (.arr (as.map orderedArtifact)), t = decoded s := by
  rw [strings_received_artifacts] at ht
  obtain ⟨s, hs, rfl⟩ := List.mem_map.mp ht
  exact ⟨s, hs, rfl⟩

lemma isKept_size {n : ℤ} (h : n.natAbs ≤ 2 ^ 53) : isKept n = true := by
  rcases h.lt_or_eq with hlt | heq
  · exact isKept_of_safe hlt
  · rw [isKept, heq]
    decide +kernel

theorem artifacts_agree_iff (locale : Collation) (hsize : ∀ a ∈ as, a.size.natAbs ≤ 2 ^ 53) :
    canonicalJson locale (artifactsValue as) = encode marshalCode (.arr ((as.map receivedArtifact).map orderedGoArtifact)) ↔
      ∀ a ∈ as, ∀ s ∈ artifactStrings a, isVerifiable s = true := by
  have hsizes : ∀ a ∈ as.map receivedArtifact, isKept a.size = true := by
    intro a ha
    obtain ⟨b, hb, rfl⟩ := List.mem_map.mp ha
    exact isKept_size (hsize b hb)
  have hkept : ∀ n, .int n ∈ (Tree.arr ((as.map receivedArtifact).map orderedGoArtifact) : Value).leaves → isKept n = true := by
    intro n hn
    simp only [Tree.leaves_arr, flatMap_map, mem_flatMap, orderedGoArtifact, Tree.leaves_obj, flatMap_cons,
      flatMap_nil, Tree.leaves_leaf, mem_append, mem_singleton, not_mem_nil, reduceCtorEq, false_or, or_false,
      GoValue.Scalar.int.injEq] at hn
    obtain ⟨a, ha, rfl⟩ := hn
    exact hsizes _ (mem_map_of_mem ha)
  rw [canonicalJson_artifacts, encode_agree_iff hkept fun t => read_from_artifacts, toJs_artifacts hsizes, plain_artifacts_iff,
    Tree.arr.injEq, map_map, map_map, map_inj_left, ← forall₂_and]
  refine forall₂_congr fun a _ => ?_
  simp only [isVerifiable_iff]
  rw [forall₂_and]
  exact and_congr_left' orderedArtifact_received

end Artifacts

end Agreement

end Documents

section Lines

lemma codePoints_newline (s t : JsString) : codePoints (s ++ 10 :: t) = codePoints s ++ 10 :: codePoints t := by
  fun_induction codePoints s with
  | case1 => exact codePoints_cons rfl t
  | case2 u =>
    have hpair : (Quoted.isHigh u && Quoted.isLow 10) = false := Bool.and_false _
    rw [singleton_append, codePoints.eq_def]
    dsimp only
    rw [hpair, if_neg Bool.false_ne_true, codePoints_cons rfl]
    rfl
  | case3 u v s h ih =>
    rw [cons_append, cons_append, codePoints.eq_def]
    dsimp only
    rw [if_pos h, ih]
    rfl
  | case4 u v s h ih =>
    rw [cons_append, cons_append, codePoints.eq_def]
    dsimp only
    rw [if_neg h, ← cons_append, ih]
    rfl

lemma decoded_newline (s t : JsString) : decoded (s ++ 10 :: t) = decoded s ++ '\n' :: decoded t := by
  rw [decoded, codePoints_newline, map_append, map_cons]
  rfl

lemma decoded_lines (lines : List JsString) : decoded ([10].intercalate lines) = joinLines (lines.map decoded) := by
  induction lines with
  | nil => rfl
  | cons l ls ih =>
    cases ls with
    | nil => simp [joinLines]
    | cons m ms =>
      rw [intercalate_cons_cons, append_assoc, singleton_append, decoded_newline, ih]
      simp only [joinLines, map_cons, intercalate_cons_cons, append_assoc, singleton_append]

lemma joinLines_injective {ls ms : List Text} (hlength : ls.map List.length = ms.map List.length)
    (h : joinLines ls = joinLines ms) : ls = ms := by
  induction ls generalizing ms with
  | nil =>
    cases ms with
    | nil => rfl
    | cons m ms => cases hlength
  | cons l ls ih =>
    cases ms with
    | nil => cases hlength
    | cons m ms =>
      simp only [map_cons, List.cons.injEq] at hlength
      cases ls with
      | nil =>
        cases ms with
        | nil => simpa [joinLines] using h
        | cons m' ms => cases hlength.2
      | cons l' ls =>
        cases ms with
        | nil => cases hlength.2
        | cons m' ms =>
          rw [joinLines, joinLines, intercalate_cons_cons, intercalate_cons_cons, append_assoc, append_assoc]
            at h
          obtain ⟨hhead, htail⟩ := append_inj h hlength.1
          rw [hhead, ih hlength.2 (append_cancel_left htail)]

variable (sha256 : Bytes → Sum)

lemma digestHex_length (b : Bytes) : (digestHex sha256 b).length = 64 := by
  rw [digestHex, hexText_length, (sha256 b).length]

lemma digestHex_injective {a b : Bytes} (h : digestHex sha256 a = digestHex sha256 b) : sha256 a = sha256 b := by
  have hbytes := hexText_injective h
  revert hbytes
  cases sha256 a
  cases sha256 b
  rintro rfl
  rfl

lemma lines_agree_iff (locale : Collation) (d : Directive JsString) :
    joinLines ((signedLines locale sha256 d).map decoded) = joinLines (verifiedLines sha256 (received d)) ↔
      sha256 (Utf8.encode (canonicalJson locale (componentsValue d.componentVersions))) =
          sha256 (canonicalJSON (goComponents (received d).componentVersions)) ∧
        sha256 (Utf8.encode (canonicalJson locale (artifactsValue d.artifacts))) =
          sha256 (canonicalJSON (goArtifacts (received d).artifacts)) := by
  have hdigest : ∀ b, decoded (digestString sha256 b) = digestHex sha256 b := fun b => decoded_utf16 _
  have hdomain : decoded (name canonicalDomain) = canonicalDomain.toList := decoded_utf16 _
  constructor
  · intro h
    have hlist := joinLines_injective ?_ h
    · simp only [signedLines, verifiedLines, map_cons, List.cons.injEq, hdigest] at hlist
      obtain ⟨-, -, -, -, -, -, -, -, hc, -, -, -, ha, -⟩ := hlist
      exact ⟨digestHex_injective sha256 hc, digestHex_injective sha256 ha⟩
    · simp only [signedLines, verifiedLines, map_cons, map_nil, hdigest, digestHex_length, hdomain]
      rfl
  · rintro ⟨hc, ha⟩
    simp only [signedLines, verifiedLines, map_cons, map_nil, hdigest, hdomain, digestHex, hc, ha]
    rfl

end Lines

section Checks

lemma mem_of_codePoint {s : JsString} {u : UInt16} (h : u.toNat ∈ codePoints s) : u ∈ s := by
  rw [← Quoted.codePoints_units s]
  exact List.mem_flatMap.mpr ⟨_, h, by rw [Quoted.units_toNat]; exact mem_singleton_self u⟩

lemma containsNewline_decoded {s : JsString} (h : breaksLine s = false) : containsNewline (decoded s) = false := by
  refine Bool.eq_false_iff.mpr fun hbreak => ?_
  obtain ⟨c, hc, hnewline⟩ := List.any_eq_true.mp hbreak
  obtain ⟨p, hp, rfl⟩ := List.mem_map.mp hc
  have hall := List.any_eq_false.mp h
  rw [Bool.or_eq_true, beq_iff_eq, beq_iff_eq] at hnewline
  rcases hnewline with hc | hc
  · have hpoint := EscapedText.scalar_ascii (Quoted.codePoints_lt s p hp) (by decide : '\r'.toNat < 0x80) hc
    rw [hpoint] at hp
    exact hall 13 (mem_of_codePoint hp) rfl
  · have hpoint := EscapedText.scalar_ascii (Quoted.codePoints_lt s p hp) (by decide : '\n'.toNat < 0x80) hc
    rw [hpoint] at hp
    exact hall 10 (mem_of_codePoint hp) rfl

lemma containsNewline_digest (sha256 : Bytes → Sum) (b : Bytes) : containsNewline (digestHex sha256 b) = false := by
  have hdigit : ∀ n < 16, (n.digitChar == '\r' || n.digitChar == '\n') = false := by decide
  refine List.any_eq_false.mpr fun c hc => ?_
  obtain ⟨x, -, hx⟩ := List.mem_flatMap.mp hc
  have hlt := x.toNat_lt
  rcases List.mem_pair.mp hx with rfl | rfl
  · exact Bool.eq_false_iff.mp (hdigit _ (by omega))
  · exact Bool.eq_false_iff.mp (hdigit _ (by omega))

lemma require_ok {holds : Bool} {message : String} {a : Unit} : require holds message = .ok a ↔ holds = true := by
  cases holds with
  | false => exact ⟨nofun, nofun⟩
  | true => exact ⟨fun _ => rfl, fun _ => rfl⟩

variable {sha256 : Bytes → Sum} {bytes : Bytes} {d : Directive Text}

lemma canonical_ok {locale : Collation} {d : Directive JsString}
    (h : canonicalRollbackDirectiveBytes locale sha256 d = .ok bytes) :
    d.schemaVersion = 1 ∧ (∀ s ∈ strings d, breaksLine s = false) ∧
      bytes = Utf8.encode (joinLines ((signedLines locale sha256 d).map decoded)) := by
  obtain ⟨_, hversion, h⟩ := bind_ok.mp h
  obtain ⟨_, -, h⟩ := bind_ok.mp h
  obtain ⟨_, -, h⟩ := bind_ok.mp h
  obtain ⟨_, hreject, h⟩ := bind_ok.mp h
  obtain ⟨_, -, h⟩ := bind_ok.mp h
  refine ⟨of_decide_eq_true (require_ok.mp hversion), fun s hs => ?_, ?_⟩
  · have hnone := require_ok.mp hreject
    rw [Bool.not_eq_true', any_eq_false] at hnone
    exact Bool.eq_false_iff.mpr (hnone s hs)
  · rw [← decoded_lines]
    exact (Except.ok.inj h).symm

lemma verifiedLines_newline (sha256 : Bytes → Sum) (hstrings : ∀ t ∈ strings d, containsNewline t = false) :
    ∀ t ∈ verifiedLines sha256 d, containsNewline t = false := by
  have hdomain : containsNewline canonicalDomain.toList = false := by decide
  simp only [strings, forall_mem_append, forall_mem_cons] at hstrings
  simp only [verifiedLines, forall_mem_cons, containsNewline_digest, hdomain, true_and]
  simp only [hstrings, not_mem_nil, false_implies, implies_true, and_true]

lemma canonicalBytes_ok_iff (hversion : d.schemaVersion = 1)
    (hstrings : ∀ t ∈ strings d ++ d.componentVersions.map Prod.fst ++ [d.directiveSignature], containsNewline t = false) :
    CanonicalBytes sha256 d = .ok bytes ↔
      ((readStamp d.approvedAt).any isRealDate = true ∧ (readStamp d.expiresAt).any isRealDate = true) ∧
        Utf8.encode (joinLines (verifiedLines sha256 d)) = bytes := by
  have hnone {ts : List Text} (h : ∀ t ∈ ts, containsNewline t = false) : (!ts.any containsNewline) = true := by
    rw [Bool.not_eq_true', any_eq_false]
    exact fun t ht => Bool.eq_false_iff.mp (h t ht)
  have hlines := hnone (verifiedLines_newline sha256 fun t ht =>
    hstrings t (mem_append_left _ (mem_append_left _ ht)))
  rw [CanonicalBytes]
  simp only [bind_ok, requireTimestamp, require_ok, hversion, hnone hstrings, hlines, decide_true, true_and, exists_const,
    and_assoc]
  exact and_congr_right fun _ => and_congr_right fun _ => ⟨Except.ok.inj, congrArg Except.ok⟩

end Checks

section Agreement

/-- Go reads and quotes every hashed string as JavaScript does, the components come in the order of their bytes, and the
times are of days that exist. -/
structure Verifiable (locale : Collation) (d : Directive JsString) : Prop where
  components : ∀ c ∈ d.componentVersions, ∀ s ∈ componentStrings c, isVerifiable s = true
  order : (entries locale d.componentVersions).Pairwise fun a b => byteOrder (decoded a.1) ≤ byteOrder (decoded b.1)
  artifacts : ∀ a ∈ d.artifacts, ∀ s ∈ artifactStrings a, isVerifiable s = true
  approvedAt : (readStamp (decoded d.approvedAt)).any isRealDate = true
  expiresAt : (readStamp (decoded d.expiresAt)).any isRealDate = true

lemma strings_received {d : Directive JsString} {t : Text} (h : t ∈ strings (received d)) : ∃ s ∈ strings d, t = decoded s := by
  have hfields (ss : List JsString) (ht : t ∈ ss.map decoded) (hss : ∀ s ∈ ss, s ∈ strings d) :
      ∃ s ∈ strings d, t = decoded s := by
    obtain ⟨s, hs, rfl⟩ := List.mem_map.mp ht
    exact ⟨s, hss s hs, rfl⟩
  simp only [strings, mem_append] at h
  rcases h with (((h | h) | h) | h) | h
  · refine hfields [d.rollbackId, d.deviceId, d.orgId, d.platform, d.architecture, d.currentVersion, d.targetVersion] h ?_
    exact fun s hs => by simp only [strings, mem_append, hs, true_or]
  · obtain ⟨c, hc, ht⟩ := List.mem_flatMap.mp h
    obtain ⟨e, he, rfl⟩ := List.mem_map.mp (pwFilter_subset _ hc)
    refine hfields (versionStrings e.2) ht fun s hs => ?_
    have hmem : s ∈ d.componentVersions.flatMap fun c => versionStrings c.2 :=
      List.mem_flatMap.mpr ⟨e, (enumerate_perm d.distinct).subset he, hs⟩
    simp only [strings, mem_append, hmem, true_or, or_true]
  · refine hfields [d.releaseManifest, d.manifestSignature, d.manifestSigningKeyId] h ?_
    exact fun s hs => by simp only [strings, mem_append, hs, true_or, or_true]
  · obtain ⟨a, ha, ht⟩ := List.mem_flatMap.mp h
    obtain ⟨b, hb, rfl⟩ := List.mem_map.mp ha
    refine hfields (artifactStrings b) ht fun s hs => ?_
    have hmem : s ∈ d.artifacts.flatMap artifactStrings := List.mem_flatMap.mpr ⟨b, hb, hs⟩
    simp only [strings, mem_append, hmem, true_or, or_true]
  · refine hfields [d.reason, d.authorizedBy, d.approvedAt, d.expiresAt, d.directiveSigningKeyId] h ?_
    exact fun s hs => by simp only [strings, mem_append, hs, or_true]

lemma received_newline {d : Directive JsString} (hstrings : ∀ s ∈ strings d, breaksLine s = false)
    (hkeys : ∀ c ∈ d.componentVersions, breaksLine c.1 = false) (hsignature : breaksLine d.directiveSignature = false) :
    ∀ t ∈ strings (received d) ++ (received d).componentVersions.map Prod.fst ++ [(received d).directiveSignature],
      containsNewline t = false := by
  intro t ht
  rw [mem_append, mem_append, mem_singleton] at ht
  rcases ht with (ht | ht) | rfl
  · obtain ⟨s, hs, rfl⟩ := strings_received ht
    exact containsNewline_decoded (hstrings s hs)
  · obtain ⟨c, hc, rfl⟩ := List.mem_map.mp ht
    obtain ⟨e, he, rfl⟩ := List.mem_map.mp (pwFilter_subset _ hc)
    exact containsNewline_decoded (hkeys e ((enumerate_perm d.distinct).subset he))
  · exact containsNewline_decoded hsignature

def unitCompare (a b : JsString) : ℤ := if a.map UInt16.toNat ≤ b.map UInt16.toNat then -1 else 1

lemma unitCompare_le {a b : JsString} : unitCompare a b ≤ 0 ↔ a.map UInt16.toNat ≤ b.map UInt16.toNat := by
  rw [unitCompare]
  split_ifs with h
  · exact ⟨fun _ => h, fun _ => by decide⟩
  · exact ⟨fun h' => absurd h' (by decide), fun h' => absurd h' h⟩

lemma units_lt {a b : Char} (ha : a.isLower ∨ a = '-') (hb : b.isLower ∨ b = '-') (h : a < b) (p s t : Text) :
    (utf16 (p ++ a :: s)).map UInt16.toNat < (utf16 (p ++ b :: t)).map UInt16.toNat := by
  have hunit {c : Char} (hc : c.isLower ∨ c = '-') : (Quoted.units c.toNat).map UInt16.toNat = [c.toNat] := by
    have hlt : c.toNat < 0x10000 := by
      rcases hc with hc | rfl
      · unfold Char.isLower at hc
        simp only [Bool.and_eq_true, decide_eq_true_eq, ge_iff_le, UInt32.le_iff_toNat_le] at hc
        have hz : 'z'.val.toNat = 122 := rfl
        have hval : c.toNat = c.val.toNat := rfl
        omega
      · decide
    rw [Quoted.units, if_pos hlt, map_singleton, UInt16.toNat_ofNat_of_lt' hlt]
  simp only [utf16, flatMap_append, flatMap_cons, map_append, hunit ha, hunit hb, singleton_append]
  refine append_left_lt (List.cons_lt_cons_iff.mpr (Or.inl ?_))
  exact h

def unitCollation : Collation where
  compare := unitCompare
  total a b := by
    rw [unitCompare_le, unitCompare_le]
    exact le_total _ _
  trans hab hbc := by
    rw [unitCompare_le] at hab hbc ⊢
    exact hab.trans hbc
  letters := by
    intro p s t a b _ ha hb h
    rw [← not_le, unitCompare_le, not_le]
    exact units_lt ha hb h p s t

def release (url : String) : Directive JsString where
  schemaVersion := 1
  rollbackId := name "r"
  deviceId := name "d"
  orgId := name "o"
  platform := name "linux"
  architecture := name "amd64"
  currentVersion := name "2"
  targetVersion := name "1"
  componentVersions := [(name "agent", ⟨name "2", name "1"⟩)]
  releaseManifest := name "m"
  manifestSignature := name "s"
  manifestSigningKeyId := name "k"
  artifacts := [⟨name "agent", name "2", name "1", name url, name "00", 7⟩]
  reason := name "why"
  authorizedBy := name "admin"
  approvedAt := name "2026-01-31T10:00:00Z"
  expiresAt := name "2026-01-31T11:00:00Z"
  directiveSigningKeyId := name "k"
  directiveSignature := name "sig"
  distinct := by simp

lemma ok_of_isSome {α : Type} {x : Except String α} (h : x.toOption.isSome = true) : ∃ a, x = .ok a := by
  cases x with
  | error e => cases h
  | ok a => exact ⟨a, rfl⟩

theorem signed_bytes_agree_iff {locale : Collation} {sha256 : Bytes → Sum} {d : Directive JsString} {bytes : Bytes}
    (hsigned : canonicalRollbackDirectiveBytes locale sha256 d = .ok bytes)
    (hkeys : ∀ c ∈ d.componentVersions, breaksLine c.1 = false) (hsignature : breaksLine d.directiveSignature = false)
    (hsize : ∀ a ∈ d.artifacts, a.size.natAbs ≤ 2 ^ 53)
    (hcomponents : sha256 (Utf8.encode (canonicalJson locale (componentsValue d.componentVersions))) =
        sha256 (canonicalJSON (goComponents (received d).componentVersions)) →
      Utf8.encode (canonicalJson locale (componentsValue d.componentVersions)) =
        canonicalJSON (goComponents (received d).componentVersions))
    (hartifacts : sha256 (Utf8.encode (canonicalJson locale (artifactsValue d.artifacts))) =
        sha256 (canonicalJSON (goArtifacts (received d).artifacts)) →
      Utf8.encode (canonicalJson locale (artifactsValue d.artifacts)) = canonicalJSON (goArtifacts (received d).artifacts)) :
    CanonicalBytes sha256 (received d) = .ok bytes ↔ Verifiable locale d := by
  obtain ⟨hversion, hstrings, rfl⟩ := canonical_ok hsigned
  have hencode {t u : Text} : Utf8.encode t = Utf8.encode u ↔ t = u := ⟨Utf8.encode_injective, congrArg Utf8.encode⟩
  rw [canonicalBytes_ok_iff hversion (received_newline hstrings hkeys hsignature), hencode, eq_comm (a := joinLines _),
    lines_agree_iff, (⟨hcomponents, congrArg sha256⟩ : _ ↔ _), (⟨hartifacts, congrArg sha256⟩ : _ ↔ _), canonicalJSON,
    canonicalJSON, hencode, hencode, sorted_components, sorted_artifacts]
  have hcs := components_agree_iff locale d.distinct
  have has := artifacts_agree_iff locale hsize
  constructor
  · rintro ⟨⟨happroved, hexpires⟩, hc, ha⟩
    obtain ⟨hverifiable, horder⟩ := hcs.mp hc
    exact ⟨hverifiable, horder, has.mp ha, happroved, hexpires⟩
  · intro h
    exact ⟨⟨h.approvedAt, h.expiresAt⟩, hcs.mpr ⟨h.components, h.order⟩, has.mpr h.artifacts⟩

theorem plain_url_verifies :
    ∃ bytes, canonicalRollbackDirectiveBytes unitCollation lengthSum (release "https://x/a?b=1") = .ok bytes ∧
      CanonicalBytes lengthSum (received (release "https://x/a?b=1")) = .ok bytes := by
  obtain ⟨bytes, h⟩ := ok_of_isSome
    (by decide +kernel : (canonicalRollbackDirectiveBytes unitCollation lengthSum (release "https://x/a?b=1")).toOption.isSome)
  refine ⟨bytes, h, (signed_bytes_agree_iff h (by decide +kernel) (by decide +kernel) (by decide +kernel)
    (fun _ => by decide +kernel) (fun _ => by decide +kernel)).mpr ⟨?_, ?_, ?_, ?_, ?_⟩⟩ <;> decide +kernel

theorem query_url_refused :
    ∃ bytes, canonicalRollbackDirectiveBytes unitCollation lengthSum (release "https://x/a?b=1&c=2") = .ok bytes ∧
      CanonicalBytes lengthSum (received (release "https://x/a?b=1&c=2")) ≠ .ok bytes := by
  obtain ⟨bytes, h⟩ := ok_of_isSome
    (by decide +kernel : (canonicalRollbackDirectiveBytes unitCollation lengthSum (release "https://x/a?b=1&c=2")).toOption.isSome)
  refine ⟨bytes, h, fun h' => ?_⟩
  have hne : (canonicalRollbackDirectiveBytes unitCollation lengthSum (release "https://x/a?b=1&c=2")).toOption ≠
      (CanonicalBytes lengthSum (received (release "https://x/a?b=1&c=2"))).toOption := by
    decide +kernel
  rw [h, h'] at hne
  exact hne rfl

end Agreement

end Breeze.Rollback.SignedBytes
