import Breeze.Rollback.SignedBytes

/-! The bytes that are signed of a directive determine it. -/

namespace Breeze.Rollback.Binding

open Breeze.Lib Breeze.Lib.Decimal Breeze.Lib.JsonText Breeze.Lib.IntegerText
open Breeze.Lib.GoValue (atom byteOrder marshal_reads)
open Breeze.Lib.Stateful (bind_ok)
open Breeze.Lib.Utf8 (Bytes)
open Breeze.Lib.Checksum (Sum lengthSum)
open Breeze.Topology.Canonical (Value)
open Signing SignedBytes

variable {sha256 : Bytes → Sum} {d d' : Directive Text} {bytes : Bytes} {m n : ℤ}

/-- What `CanonicalBytes` hashes. -/
def hashed (d : Directive Text) : List Bytes :=
  [canonicalJSON (goComponents d.componentVersions), Utf8.encode d.releaseManifest, canonicalJSON (goArtifacts d.artifacts),
    Utf8.encode d.reason]

lemma intText_injective (h : intText m = intText n) : m = n := by
  have hminus {k : ℤ} {t : Text} (ht : '-' :: t = Nat.toDigits 10 k.natAbs) : False :=
    absurd (NumberText.toDigits_digits _ '-' (ht ▸ List.mem_cons_self)) (by decide)
  unfold intText at h
  split_ifs at h with hm hn hn
  · have := toDigits_injective (List.append_cancel_left h)
    omega
  · exact (hminus h).elim
  · exact (hminus h.symm).elim
  · have := toDigits_injective (List.append_cancel_left h)
    omega

lemma canonicalJSON_reads {v w : Value} (h : canonicalJSON v = canonicalJSON w) :
    Tree.relabel id atom (v.sorted byteOrder) = Tree.relabel id atom (w.sorted byteOrder) := by
  have hv := JsonRead.read_encode marshal_reads (v.sorted byteOrder)
  have hw := JsonRead.read_encode marshal_reads (w.sorted byteOrder)
  rw [canonicalJSON, canonicalJSON] at h
  rw [h, hw] at hv
  exact (Option.some.inj hv).symm

lemma components_perm {cs ds : List (Text × ComponentVersion Text)}
    (h : canonicalJSON (goComponents cs) = canonicalJSON (goComponents ds)) : cs.Perm ds := by
  have hread := canonicalJSON_reads h
  rw [sorted_components, sorted_components, goComponents, goComponents, Tree.relabel_obj, Tree.relabel_obj, mapValues, mapValues,
    List.map_map, List.map_map] at hread
  have heq : byKey byteOrder cs = byKey byteOrder ds := by
    refine List.map_injective_iff.mpr (fun c e hce => ?_) (Tree.obj.inj hread)
    obtain ⟨k, current, target⟩ := c
    obtain ⟨l, current', target'⟩ := e
    simpa [goVersion, atom] using hce
  exact (byKey_perm byteOrder cs).symm.trans (heq ▸ byKey_perm byteOrder ds)

lemma artifacts_eq {as bs : List (Artifact Text)} (h : canonicalJSON (goArtifacts as) = canonicalJSON (goArtifacts bs)) :
    as = bs := by
  have hread := canonicalJSON_reads h
  rw [sorted_artifacts, sorted_artifacts, Tree.relabel_arr, Tree.relabel_arr, List.map_map, List.map_map] at hread
  refine List.map_injective_iff.mpr (fun a b hab => ?_) (Tree.arr.inj hread)
  obtain ⟨component, current, target, url, sum, size⟩ := a
  obtain ⟨component', current', target', url', sum', size'⟩ := b
  simp only [Function.comp_apply, orderedGoArtifact, Tree.relabel_obj, List.map_cons, List.map_nil, Tree.relabel_leaf, atom,
    Tree.obj.injEq, List.cons.injEq, Prod.mk.injEq, Tree.leaf.injEq, JsonRead.Atom.str.injEq, JsonRead.Atom.word.injEq, true_and,
    and_true] at hab
  obtain ⟨hcomponent, hcurrent, hurl, hsum, hsize, htarget⟩ := hab
  rw [hcomponent, hcurrent, hurl, hsum, intText_injective hsize, htarget]

lemma canonicalBytes_lines (h : CanonicalBytes sha256 d = .ok bytes) : d.schemaVersion = 1 ∧
      (Utf8.toText bytes).splitOn '\n' = verifiedLines sha256 d := by
  obtain ⟨_, hversion, h⟩ := bind_ok.mp h
  obtain ⟨_, -, h⟩ := bind_ok.mp h
  obtain ⟨_, -, h⟩ := bind_ok.mp h
  obtain ⟨_, -, h⟩ := bind_ok.mp h
  obtain ⟨_, hlines, h⟩ := bind_ok.mp h
  have hnone := require_ok.mp hlines
  rw [Bool.not_eq_true', List.any_eq_false] at hnone
  cases h
  refine ⟨of_decide_eq_true (require_ok.mp hversion), ?_⟩
  rw [Utf8.toText_encode, joinLines]
  refine List.splitOn_intercalate '\n' (fun t ht hmem => hnone t ht ?_) (List.cons_ne_nil _ _)
  exact List.any_eq_true.mpr ⟨'\n', hmem, rfl⟩

theorem canonical_bytes_bind (hfree : ∀ x ∈ hashed d, ∀ y ∈ hashed d', sha256 x = sha256 y → x = y)
    (h : CanonicalBytes sha256 d = .ok bytes) (h' : CanonicalBytes sha256 d' = .ok bytes) :
    d.componentVersions.Perm d'.componentVersions ∧
      d' = { d with
        componentVersions := d'.componentVersions
        distinct := d'.distinct
        directiveSignature := d'.directiveSignature } := by
  obtain ⟨hversion, hlines⟩ := canonicalBytes_lines h
  obtain ⟨hversion', hlines'⟩ := canonicalBytes_lines h'
  rw [hlines] at hlines'
  simp only [verifiedLines, List.cons.injEq, true_and, and_true] at hlines'
  obtain ⟨hrollback, hdevice, horg, hplatform, harch, hcurrent, htarget, hcomponents, hmanifest, hmsig, hmkey, hartifacts, hreason,
    hauthor, happroved, hexpires, hkey⟩ := hlines'
  simp only [hashed, List.forall_mem_cons] at hfree
  have hc := components_perm (hfree.1.1 (digestHex_injective sha256 hcomponents))
  have hm := Utf8.encode_injective (hfree.2.1.2.1 (digestHex_injective sha256 hmanifest))
  have ha := artifacts_eq (hfree.2.2.1.2.2.1 (digestHex_injective sha256 hartifacts))
  have hr := Utf8.encode_injective (hfree.2.2.2.1.2.2.2.1 (digestHex_injective sha256 hreason))
  refine ⟨hc, ?_⟩
  cases d'
  simp_all

def resigned (d : Directive Text) (signature : Text) : Directive Text := { d with directiveSignature := signature }

theorem canonical_bytes_bind_resigned :
    ∃ bytes, CanonicalBytes lengthSum (received (release "a")) = .ok bytes ∧
      CanonicalBytes lengthSum (resigned (received (release "a")) "again".toList) = .ok bytes ∧
      (received (release "a")).componentVersions.Perm (resigned (received (release "a")) "again".toList).componentVersions := by
  obtain ⟨bytes, h⟩ := ok_of_isSome (by decide +kernel : (CanonicalBytes lengthSum (received (release "a"))).toOption.isSome)
  have h' : CanonicalBytes lengthSum (resigned (received (release "a")) "again".toList) = .ok bytes := h
  have hfree : ∀ x ∈ hashed (received (release "a")), ∀ y ∈ hashed (received (release "a")),
      (lengthSum x).bytes = (lengthSum y).bytes → x = y := by decide +kernel
  exact ⟨bytes, h, h', (canonical_bytes_bind (fun x hx y hy hxy => hfree x hx y hy (congrArg Sum.bytes hxy)) h h').1⟩

end Breeze.Rollback.Binding
