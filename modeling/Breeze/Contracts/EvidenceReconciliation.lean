import Breeze.Contracts.BillingEvidence
import Breeze.Lib.Stateful

/-! The invoice lines, the device evidence and the outcome row of one billing run agree. -/

namespace Breeze.Contracts.EvidenceReconciliation

open Breeze.Lib.Stateful (bind_ok)
open ContractService DeviceCoverage BillingEvidence List

lemma map_eq_ok {ε α β : Type} {x : Except ε α} {f : α → β} {b : β} (h : f <$> x = .ok b) : ∃ a, x = .ok a ∧ f a = b := by
  cases x with
  | error e => cases h
  | ok a => exact ⟨a, rfl, Except.ok.inj h⟩

section Lines

variable {env : Surroundings} {inserted : ℕ} {l : ContractLineRow} {r : ResolvedQuantity} {m : MaterializedContractLine}

lemma addContractLine_spec {input : LineRequest} {line : InvoiceLine} {pricedFrom : PricedFrom}
    (h : addContractLine env inserted input = .ok (line, pricedFrom)) :
    line.id = env.lineId inserted ∧ line.sourceId = input.sourceId ∧ line.quantity = input.quantity := by
  obtain ⟨price, -, h⟩ := bind_ok.mp h
  cases h
  exact ⟨rfl, rfl, rfl⟩

lemma addOverageLine_spec {baseLine line : InvoiceLine} (h : addOverageLine env inserted l r baseLine = .ok line) :
    line.id = env.lineId inserted ∧ line.sourceId = l.id ∧ line.quantity = r.overage := by
  obtain ⟨expected, -, h⟩ := bind_ok.mp h
  obtain ⟨⟨added, priced⟩, hadded, h⟩ := bind_ok.mp h
  simp only at h
  split at h
  · cases h
  · cases h
    exact addContractLine_spec hadded

/-- What the materializer inserts: a base line and, when an overage is billed, the line after it. -/
structure Materialized (env : Surroundings) (inserted : ℕ) (l : ContractLineRow) (r : ResolvedQuantity) (m : MaterializedContractLine) :
    Prop where
  base_id : m.baseLine.id = env.lineId inserted
  base_source : m.baseLine.sourceId = l.id
  bills : billsOverage r = true → ∃ o, m.overageLine = some o
  only_bills : ∀ o, m.overageLine = some o →
    billsOverage r = true ∧ o.id = env.lineId (inserted + 1) ∧ o.sourceId = l.id ∧ o.quantity = r.overage
  summary : m.overage = overageSummary l r m.overageLine

lemma materialize_spec (h : materializeContractLineOntoInvoice env inserted l r = .ok m) : Materialized env inserted l r m := by
  obtain ⟨⟨baseLine, pricedFrom⟩, hbase, h⟩ := bind_ok.mp h
  obtain ⟨overageLine, hoverage, h⟩ := bind_ok.mp h
  cases h
  obtain ⟨hid, hsource, -⟩ := addContractLine_spec hbase
  by_cases hbills : billsOverage r = true
  · rw [billedOverage, if_pos hbills] at hoverage
    obtain ⟨o, ho, rfl⟩ := map_eq_ok hoverage
    refine ⟨hid, hsource, fun _ => ⟨o, rfl⟩, ?_, rfl⟩
    intro o' ho'
    cases ho'
    exact ⟨hbills, addOverageLine_spec ho⟩
  · rw [billedOverage, if_neg hbills] at hoverage
    cases hoverage
    exact ⟨hid, hsource, fun h => absurd h hbills, nofun, rfl⟩

end Lines

section Evidence

def taken (l : ContractLineRow) (n : ℕ) : ℕ := evidenceCut l.includedQuantity n

variable {env : Surroundings} {inserted : ℕ} {l : ContractLineRow} {m : MaterializedContractLine} {n : ℕ}

lemma overage_eq (n : ℕ) : (applyAllowance n l .includedUnits).overage = ((n - taken l n : ℕ) : ℚ) := by
  rw [applyAllowance, taken]
  cases l.includedQuantity with
  | none => simp [evidenceCut]
  | some included =>
    simp only [evidenceCut]
    rcases le_total included n with hle | hle
    · rw [min_eq_left hle, Nat.cast_sub hle, max_eq_right]
      exact sub_nonneg.mpr (by exact_mod_cast hle)
    · rw [min_eq_right hle, Nat.sub_self, Nat.cast_zero, max_eq_left]
      exact sub_nonpos.mpr (by exact_mod_cast hle)

lemma included_none_iff (hcheck : AllowanceCheck l) : l.includedQuantity = none ↔ l.overageMode = none := by
  rw [← Option.isNone_iff_eq_none, hcheck.together, Option.isNone_iff_eq_none]

lemma overageMode_eq (hcheck : AllowanceCheck l) (n : ℚ) : (applyAllowance n l .includedUnits).overageMode = l.overageMode := by
  rw [applyAllowance]
  cases hincluded : l.includedQuantity with
  | none => exact ((included_none_iff hcheck).mp hincluded).symm
  | some included => rfl

def rowOf (l : ContractLineRow) (m : MaterializedContractLine) (n : ℕ) (row : DeviceSnapshotRow) (i : ℕ) : PendingEvidence :=
  let pending := fun line countedAs => PendingEvidence.mk line row.id row.hostname row.role row.siteId countedAs
  if i < taken l n then pending m.baseLine.id .included
  else if l.overageMode = some .bill then pending ((m.overageLine.map InvoiceLine.id).getD "") .overage
  else pending m.baseLine.id .flagged

lemma evidenceRow_eq (hcheck : AllowanceCheck l) (hm : Materialized env inserted l (applyAllowance n l .includedUnits) m)
    (row : DeviceSnapshotRow) {i : ℕ} (hi : i < n) :
    evidenceRow (applyAllowance n l .includedUnits) m (taken l n) row i = .ok (rowOf l m n row i) := by
  rw [evidenceRow, rowOf, overageMode_eq hcheck]
  by_cases hcut : i < taken l n
  · simp [hcut]
  by_cases hmode : l.overageMode = some .bill
  · have hpos : 0 < (applyAllowance n l .includedUnits).overage := by
      rw [overage_eq]
      exact_mod_cast (by omega : 0 < n - taken l n)
    have hbills : billsOverage (applyAllowance n l .includedUnits) = true := by
      rw [billsOverage, overageMode_eq hcheck, hmode]
      simpa using hpos
    obtain ⟨o, ho⟩ := hm.bills hbills
    simp [hcut, hmode, ho]
  · simp [hcut, hmode]

lemma included_eq (n : ℚ) : (applyAllowance n l .includedUnits).included = l.includedQuantity := by
  rw [applyAllowance]
  cases l.includedQuantity <;> rfl

lemma mapM_ok {ε α β : Type} {f : α → Except ε β} {g : α → β} {as : List α} (h : ∀ a ∈ as, f a = .ok (g a)) :
    as.mapM f = .ok (as.map g) := by
  induction as with
  | nil => rfl
  | cons a as ih =>
    rw [mapM_cons, h a mem_cons_self, ih fun a ha => h a (mem_cons_of_mem _ ha)]
    rfl

lemma evidenceForLine_eq (hcheck : AllowanceCheck l) {devices : List DeviceSnapshotRow} (hordered : orderDevicesForEvidence devices = devices)
    (hm : Materialized env inserted l (applyAllowance devices.length l .includedUnits) m) :
    evidenceForLine devices (applyAllowance devices.length l .includedUnits) m =
      .ok (devices.zipIdx.map fun entry => rowOf l m devices.length entry.1 entry.2) := by
  rw [evidenceForLine]
  simp only [hordered, included_eq]
  apply mapM_ok
  rintro ⟨row, i⟩ hentry
  have hi := snd_lt_of_mem_zipIdx hentry
  exact evidenceRow_eq hcheck hm row (by simpa using hi)

end Evidence

section Loop

variable {env : Surroundings} {snapshot : OrgDeviceSnapshot}

def coveredDevices (snapshot : OrgDeviceSnapshot) (l : ContractLineRow) : List DeviceSnapshotRow :=
  orderDevicesForEvidence (snapshot.devices.filter (isCovered snapshot l.toCoverageLine))

structure Piece where
  inserted : ℕ
  quantity : ℚ
  materialized : MaterializedContractLine
  evidence : List PendingEvidence

def Piece.lines (p : Piece) : List InvoiceLine := p.materialized.baseLine :: p.materialized.overageLine.toList

structure BilledAs (env : Surroundings) (snapshot : OrgDeviceSnapshot) (l : ContractLineRow) (p : Piece) : Prop where
  materialized : Materialized env p.inserted l (applyAllowance p.quantity l .includedUnits) p.materialized
  device : isDeviceLine l.toCoverageLine = true → p.quantity = (coveredDevices snapshot l).length ∧
    evidenceForLine (coveredDevices snapshot l) (applyAllowance p.quantity l .includedUnits) p.materialized = .ok p.evidence
  other : isDeviceLine l.toCoverageLine = false → p.evidence = []
  seats : l.lineType = .perSeat → ∃ n, env.seats = .ok n ∧ p.quantity = n

variable {l : ContractLineRow} {quantity : ℚ} {ordered : Option (List DeviceSnapshotRow)} {draft draft' : Draft}

lemma lineQuantity_device (hdevice : isDeviceLine l.toCoverageLine = true) (h : lineQuantity env snapshot l = .ok (quantity, ordered)) :
    quantity = (coveredDevices snapshot l).length ∧ ordered = some (coveredDevices snapshot l) := by
  have hcovered : deviceQuantity snapshot l = .ok (quantity, ordered) := by
    rw [← h, lineQuantity]
    cases htype : l.lineType <;> simp [isDeviceLine, htype] at hdevice ⊢
  rw [deviceQuantity] at hcovered
  split at hcovered
  · cases hcovered
  · split at hcovered
    · cases hcovered
    · next devices hmatching =>
      obtain ⟨_, -, hdevices⟩ := bind_ok.mp hmatching
      rw [if_pos hdevice] at hdevices
      cases hdevices
      cases hcovered
      exact ⟨rfl, rfl⟩

lemma lineQuantity_other (hdevice : isDeviceLine l.toCoverageLine = false) (h : lineQuantity env snapshot l = .ok (quantity, ordered)) :
    ordered = none ∧ (l.lineType = .perSeat → ∃ n, env.seats = .ok n ∧ quantity = n) := by
  rw [lineQuantity] at h
  cases htype : l.lineType with
  | flat | manual =>
    rw [htype] at h
    cases h
    exact ⟨rfl, nofun⟩
  | perSeat =>
    rw [htype] at h
    obtain ⟨n, hn, hpair⟩ := map_eq_ok h
    obtain ⟨hquantity, hordered⟩ := Prod.mk.inj hpair
    exact ⟨hordered.symm, fun _ => ⟨n, hn, hquantity.symm⟩⟩
  | perDevice | perDeviceRole | perDeviceGroup => simp [isDeviceLine, htype] at hdevice

lemma billLine_spec (h : billLine env snapshot draft l = .ok draft') :
    ∃ p : Piece, BilledAs env snapshot l p ∧ p.inserted = draft.lines.length ∧ draft'.lines = draft.lines ++ p.lines ∧
      draft'.overages = draft.overages ++ p.materialized.overage.toList ∧
      draft'.pendingEvidence = draft.pendingEvidence ++ p.evidence := by
  obtain ⟨⟨quantity, ordered⟩, hquantity, h⟩ := bind_ok.mp h
  obtain ⟨m, hm, h⟩ := bind_ok.mp h
  obtain ⟨evidence, hevidence, h⟩ := bind_ok.mp h
  cases h
  refine ⟨⟨draft.lines.length, quantity, m, evidence⟩, ⟨materialize_spec hm, ?_, ?_, ?_⟩, rfl, rfl, rfl, rfl⟩
  · intro hdevice
    obtain ⟨rfl, rfl⟩ := lineQuantity_device hdevice hquantity
    exact ⟨rfl, hevidence⟩
  · intro hdevice
    obtain ⟨rfl, -⟩ := lineQuantity_other hdevice hquantity
    cases hevidence
    rfl
  · intro hseat
    exact (lineQuantity_other (by simp [isDeviceLine, hseat]) hquantity).2 hseat

def Numbered (env : Surroundings) (lines : List InvoiceLine) : Prop :=
  lines.map InvoiceLine.id = (List.range lines.length).map env.lineId

lemma Numbered.append {lines : List InvoiceLine} (h : Numbered env lines) {p : Piece}
    (hp : BilledAs env snapshot l p) (hinserted : p.inserted = lines.length) : Numbered env (lines ++ p.lines) := by
  have hbase := hp.materialized.base_id
  rw [hinserted] at hbase
  rw [Numbered] at h ⊢
  cases hoverage : p.materialized.overageLine with
  | none =>
    rw [map_append, h, Piece.lines, hoverage]
    simp [range_succ, hbase]
  | some o =>
    obtain ⟨-, hid, -⟩ := hp.materialized.only_bills o hoverage
    rw [hinserted] at hid
    rw [map_append, h, Piece.lines, hoverage]
    simp [range_succ, hbase, hid]

lemma foldlM_spec {lines : List ContractLineRow} (hnumbered : Numbered env draft.lines)
    (h : lines.foldlM (billLine env snapshot) draft = .ok draft') :
    ∃ pieces : List Piece, List.Forall₂ (BilledAs env snapshot) lines pieces ∧ Numbered env draft'.lines ∧
      draft'.lines = draft.lines ++ pieces.flatMap Piece.lines ∧
      draft'.overages = draft.overages ++ pieces.flatMap (fun p => p.materialized.overage.toList) ∧
      draft'.pendingEvidence = draft.pendingEvidence ++ pieces.flatMap Piece.evidence := by
  induction lines generalizing draft with
  | nil =>
    cases h
    exact ⟨[], .nil, hnumbered, by simp⟩
  | cons l lines ih =>
    rw [foldlM_cons] at h
    obtain ⟨next, hnext, h⟩ := bind_ok.mp h
    obtain ⟨p, hp, hinserted, hlines, hoverages, hevidence⟩ := billLine_spec hnext
    have hnext' : Numbered env next.lines := by
      rw [hlines]
      exact hnumbered.append hp hinserted
    obtain ⟨pieces, hpieces, hnumbered', hlines', hoverages', hevidence'⟩ := ih hnext' h
    refine ⟨p :: pieces, .cons hp hpieces, hnumbered', ?_, ?_, ?_⟩
    · rw [hlines', hlines, flatMap_cons, append_assoc]
    · rw [hoverages', hoverages, flatMap_cons, append_assoc]
    · rw [hevidence', hevidence, flatMap_cons, append_assoc]

end Loop

section Rows

def ownerOf (lines : List InvoiceLine) (row : PendingEvidence) : Option String :=
  (lines.find? fun line => line.id == row.invoiceLineId).map InvoiceLine.sourceId

def evidenceOf (w : Written) (l : ContractLineRow) : List PendingEvidence :=
  w.evidence.filter fun row => ownerOf w.invoiceLines row == some l.id

lemma ownerOf_eq {lines : List InvoiceLine} (hnodup : (lines.map InvoiceLine.id).Nodup) {line : InvoiceLine} (hline : line ∈ lines)
    {row : PendingEvidence} (hid : line.id = row.invoiceLineId) : ownerOf lines row = some line.sourceId := by
  rw [ownerOf]
  cases hfind : lines.find? (fun line => line.id == row.invoiceLineId) with
  | none =>
    rw [List.find?_eq_none] at hfind
    exact absurd (beq_iff_eq.mpr hid) (hfind line hline)
  | some found =>
    have hfound : found.id = row.invoiceLineId := by simpa using List.find?_some hfind
    have hsame := inj_on_of_nodup_map hnodup (List.mem_of_find?_eq_some hfind) hline (hfound.trans hid.symm)
    rw [hsame]
    rfl

variable {lines : List ContractLineRow} {pieces : List Piece} {owner : PendingEvidence → Option String}

def Owned (owner : PendingEvidence → Option String) (l : ContractLineRow) (p : Piece) : Prop :=
  ∀ row ∈ p.evidence, owner row = some l.id

lemma exists_line {R : ContractLineRow → Piece → Prop} (h : List.Forall₂ R lines pieces) {p : Piece} (hp : p ∈ pieces) :
    ∃ l ∈ lines, R l p := by
  rw [← map_snd_zip h.length_eq.ge] at hp
  obtain ⟨⟨l, p⟩, hmem, rfl⟩ := List.mem_map.mp hp
  exact ⟨l, (of_mem_zip hmem).1, (List.forall₂_iff_zip.mp h).2 hmem⟩

lemma filter_pieces (h : List.Forall₂ (Owned owner) lines pieces) (hnodup : (lines.map fun l => l.id).Nodup) {l : ContractLineRow}
    {p : Piece} (hmem : (l, p) ∈ lines.zip pieces) :
    (pieces.flatMap Piece.evidence).filter (fun row => owner row == some l.id) = p.evidence := by
  induction h with
  | nil => exact absurd hmem not_mem_nil
  | @cons l₀ p₀ lines pieces hl hs ih =>
    rw [map_cons, nodup_cons] at hnodup
    rw [flatMap_cons, filter_append]
    rw [zip_cons_cons, mem_cons] at hmem
    rcases hmem with hhead | htail
    · obtain ⟨rfl, rfl⟩ := Prod.mk.inj hhead
      have hkept : p.evidence.filter (fun row => owner row == some l.id) = p.evidence :=
        List.filter_eq_self.mpr fun row hrow => beq_iff_eq.mpr (hl row hrow)
      have hdropped : (pieces.flatMap Piece.evidence).filter (fun row => owner row == some l.id) = [] := by
        rw [filter_eq_nil_iff]
        intro row hrow heq
        obtain ⟨p', hp', hrow⟩ := List.mem_flatMap.mp hrow
        obtain ⟨l', hl', howned⟩ := exists_line hs hp'
        rw [howned row hrow, beq_iff_eq, Option.some.injEq] at heq
        exact hnodup.1 (List.mem_map.mpr ⟨l', hl', heq⟩)
      rw [hkept, hdropped, append_nil]
    · have hdropped : p₀.evidence.filter (fun row => owner row == some l.id) = [] := by
        rw [filter_eq_nil_iff]
        intro row hrow heq
        rw [hl row hrow, beq_iff_eq, Option.some.injEq] at heq
        exact hnodup.1 (List.mem_map.mpr ⟨l, (of_mem_zip htail).1, heq.symm⟩)
      rw [hdropped, nil_append]
      exact ih hnodup.2 htail

end Rows

section Pieces

variable {env : Surroundings} {snapshot : OrgDeviceSnapshot} {l : ContractLineRow} {p : Piece}

lemma BilledAs.counted (h : BilledAs env snapshot l p) (hdevice : isDeviceLine l.toCoverageLine = true) :
    Materialized env p.inserted l (applyAllowance (coveredDevices snapshot l).length l .includedUnits) p.materialized :=
  (h.device hdevice).1 ▸ h.materialized

lemma BilledAs.evidence_eq (h : BilledAs env snapshot l p) (hcheck : AllowanceCheck l) (hdevice : isDeviceLine l.toCoverageLine = true) :
    p.evidence = (coveredDevices snapshot l).zipIdx.map fun entry =>
      rowOf l p.materialized (coveredDevices snapshot l).length entry.1 entry.2 := by
  obtain ⟨hquantity, hevidence⟩ := h.device hdevice
  have hidem : orderDevicesForEvidence (coveredDevices snapshot l) = coveredDevices snapshot l := orderDevicesForEvidence_idem _
  rw [hquantity, evidenceForLine_eq hcheck hidem (h.counted hdevice)] at hevidence
  exact (Except.ok.inj hevidence).symm

lemma rowOf_deviceId (l : ContractLineRow) (m : MaterializedContractLine) (n : ℕ) (row : DeviceSnapshotRow) (i : ℕ) :
    (rowOf l m n row i).deviceId = row.id := by
  rw [rowOf]
  split_ifs <;> rfl

lemma BilledAs.deviceIds (h : BilledAs env snapshot l p) (hcheck : AllowanceCheck l) (hdevice : isDeviceLine l.toCoverageLine = true) :
    p.evidence.map PendingEvidence.deviceId = (coveredDevices snapshot l).map DeviceSnapshotRow.id := by
  rw [h.evidence_eq hcheck hdevice, map_map]
  have hids : PendingEvidence.deviceId ∘ (fun entry : DeviceSnapshotRow × ℕ =>
      rowOf l p.materialized (coveredDevices snapshot l).length entry.1 entry.2) = DeviceSnapshotRow.id ∘ Prod.fst := by
    funext entry
    exact rowOf_deviceId _ _ _ _ _
  rw [hids, ← map_map, zipIdx_map_fst]

lemma rowOf_overage {m : MaterializedContractLine} {n : ℕ} (hcheck : AllowanceCheck l) {inserted : ℕ}
    (hm : Materialized env inserted l (applyAllowance n l .includedUnits) m) {i : ℕ} (hi : i < n) (hcut : ¬ i < taken l n)
    (hmode : l.overageMode = some .bill) (row : DeviceSnapshotRow) :
    ∃ o, m.overageLine = some o ∧ (rowOf l m n row i).countedAs = .overage ∧ (rowOf l m n row i).invoiceLineId = o.id ∧
      o.sourceId = l.id ∧ o.quantity = ((n - taken l n : ℕ) : ℚ) := by
  have hrow := evidenceRow_eq hcheck hm row hi
  rw [evidenceRow, overageMode_eq hcheck, if_neg hcut, if_pos hmode] at hrow
  cases hoverage : m.overageLine with
  | none =>
    rw [hoverage] at hrow
    cases hrow
  | some o =>
    obtain ⟨-, -, hsource, hquantity⟩ := hm.only_bills o hoverage
    refine ⟨o, rfl, ?_, ?_, hsource, hquantity.trans (overage_eq n)⟩
    · simp [rowOf, hcut, hmode]
    · simp [rowOf, hcut, hmode, hoverage]

lemma BilledAs.rows (h : BilledAs env snapshot l p) (hcheck : AllowanceCheck l) {row : PendingEvidence} (hrow : row ∈ p.evidence) :
    isDeviceLine l.toCoverageLine = true ∧ ∃ line ∈ p.lines, line.id = row.invoiceLineId ∧ line.sourceId = l.id := by
  cases hdevice : isDeviceLine l.toCoverageLine with
  | false =>
    rw [h.other hdevice] at hrow
    exact absurd hrow not_mem_nil
  | true =>
    refine ⟨rfl, ?_⟩
    have hm := h.counted hdevice
    rw [h.evidence_eq hcheck hdevice] at hrow
    obtain ⟨⟨device, i⟩, hentry, rfl⟩ := List.mem_map.mp hrow
    have hi : i < (coveredDevices snapshot l).length := by simpa using snd_lt_of_mem_zipIdx hentry
    have hbase : p.materialized.baseLine ∈ p.lines := mem_cons_self
    by_cases hcut : i < taken l (coveredDevices snapshot l).length
    · exact ⟨_, hbase, by simp [rowOf, hcut], hm.base_source⟩
    by_cases hmode : l.overageMode = some .bill
    · obtain ⟨o, hoverage, -, hid, hsource, -⟩ := rowOf_overage hcheck hm hi hcut hmode device
      exact ⟨o, by simp [Piece.lines, hoverage], hid.symm, hsource⟩
    · exact ⟨_, hbase, by simp [rowOf, hcut, hmode], hm.base_source⟩

lemma BilledAs.dispositions (h : BilledAs env snapshot l p) (hcheck : AllowanceCheck l) (hdevice : isDeviceLine l.toCoverageLine = true)
    {n : ℕ} (hn : (coveredDevices snapshot l).length = n) :
    (∀ row ∈ p.evidence.take (taken l n), row.countedAs = .included) ∧
    (l.overageMode = some .bill → ∀ row ∈ p.evidence.drop (taken l n), row.countedAs = .overage ∧
      ∃ line ∈ p.lines, line.id = row.invoiceLineId ∧ line.sourceId = l.id ∧ line.quantity = ((n - taken l n : ℕ) : ℚ)) ∧
    (l.overageMode ≠ some .bill → ∀ row ∈ p.evidence.drop (taken l n), row.countedAs = .flagged) := by
  subst hn
  have hm := h.counted hdevice
  rw [h.evidence_eq hcheck hdevice]
  refine ⟨?_, ?_, ?_⟩
  · intro row hrow
    obtain ⟨i, hi, rfl⟩ := List.mem_take_iff_getElem.mp hrow
    rw [getElem_map, getElem_zipIdx]
    simp [rowOf, (lt_min_iff.mp hi).1]
  · intro hmode row hrow
    obtain ⟨i, hi, rfl⟩ := List.mem_drop_iff_getElem.mp hrow
    rw [length_map, length_zipIdx] at hi
    rw [getElem_map, getElem_zipIdx]
    simp only [Nat.zero_add]
    have hi' : taken l (coveredDevices snapshot l).length + i < (coveredDevices snapshot l).length := by omega
    obtain ⟨o, hoverage, hcounted, hid, hsource, hsize⟩ := rowOf_overage hcheck hm hi' (by omega) hmode
      ((coveredDevices snapshot l)[taken l (coveredDevices snapshot l).length + i])
    exact ⟨hcounted, o, by simp [Piece.lines, hoverage], hid.symm, hsource, hsize⟩
  · intro hmode row hrow
    obtain ⟨i, hi, rfl⟩ := List.mem_drop_iff_getElem.mp hrow
    rw [getElem_map, getElem_zipIdx]
    simp [rowOf, hmode]

end Pieces

section Totals

def rowsCounted (countedAs : CountedAs) (rows : List PendingEvidence) : ℕ := rows.countP fun row => row.countedAs == countedAs

def dispositionOf : OverageMode → CountedAs
  | .bill => .overage
  | .flag => .flagged

def seatOverage (env : Surroundings) (mode : OverageMode) (l : ContractLineRow) : ℚ :=
  if l.lineType = .perSeat ∧ l.overageMode = some mode then
    match env.seats with
    | .ok n => max 0 ((n : ℚ) - l.includedQuantity.getD 0)
    | .error _ => 0
  else 0

lemma overage_nonneg (n : ℚ) (l : ContractLineRow) : 0 ≤ (applyAllowance n l .includedUnits).overage := by
  rw [applyAllowance]
  cases l.includedQuantity with
  | none => exact le_rfl
  | some included => exact le_max_left _ _

lemma modeTotal_summary {env : Surroundings} {l : ContractLineRow} {m : MaterializedContractLine} {inserted : ℕ} {n : ℚ}
    (hcheck : AllowanceCheck l) (hm : Materialized env inserted l (applyAllowance n l .includedUnits) m) (mode : OverageMode) :
    modeTotal m.overage.toList mode = if l.overageMode = some mode then (applyAllowance n l .includedUnits).overage else 0 := by
  have hnonneg := overage_nonneg n l
  rw [hm.summary, overageSummary, overageMode_eq hcheck]
  cases hmode : l.overageMode with
  | none => simp [modeTotal]
  | some mode' =>
    simp only
    by_cases hpos : 0 < (applyAllowance n l .includedUnits).overage
    · by_cases hsame : mode' = mode
      · simp [hpos, hsame, modeTotal]
      · simp [hpos, hsame, modeTotal]
    · have hzero : (applyAllowance n l .includedUnits).overage = 0 := le_antisymm (not_lt.mp hpos) hnonneg
      simp [hzero, modeTotal]

variable {env : Surroundings} {snapshot : OrgDeviceSnapshot} {l : ContractLineRow} {p : Piece}

variable {countedAs : CountedAs} {rows : List PendingEvidence}

lemma rowsCounted_zero (h : ∀ row ∈ rows, row.countedAs ≠ countedAs) : rowsCounted countedAs rows = 0 := by
  rw [rowsCounted, countP_eq_zero]
  exact fun row hrow => by simpa using h row hrow

lemma rowsCounted_all (h : ∀ row ∈ rows, row.countedAs = countedAs) : rowsCounted countedAs rows = rows.length := by
  rw [rowsCounted, countP_eq_length]
  exact fun row hrow => by simpa using h row hrow

lemma BilledAs.rowsCounted_eq (h : BilledAs env snapshot l p) (hcheck : AllowanceCheck l)
    (hdevice : isDeviceLine l.toCoverageLine = true) (mode : OverageMode) :
    rowsCounted (dispositionOf mode) p.evidence =
      if l.overageMode = some mode then (coveredDevices snapshot l).length - taken l (coveredDevices snapshot l).length else 0 := by
  generalize hn : (coveredDevices snapshot l).length = n
  obtain ⟨hincluded, hoverage, hflagged⟩ := h.dispositions hcheck hdevice hn
  have hlength : p.evidence.length = n := by
    rw [h.evidence_eq hcheck hdevice, length_map, length_zipIdx, hn]
  have hrest : (p.evidence.drop (taken l n)).length = n - taken l n := by rw [length_drop, hlength]
  have hsplit : rowsCounted (dispositionOf mode) p.evidence = rowsCounted (dispositionOf mode) (p.evidence.drop (taken l n)) := by
    have hfront : rowsCounted (dispositionOf mode) (p.evidence.take (taken l n)) = 0 := by
      apply rowsCounted_zero
      intro row hrow
      rw [hincluded row hrow]
      cases mode <;> decide
    conv_lhs => rw [← take_append_drop (taken l n) p.evidence, rowsCounted, countP_append, ← rowsCounted, hfront, Nat.zero_add]
    rfl
  rw [hsplit]
  cases hmode : l.overageMode with
  | none =>
    have hall : taken l n = n := by
      rw [taken, (included_none_iff hcheck).mpr hmode]
      rfl
    rw [hall, drop_eq_nil_of_le hlength.le]
    rfl
  | some mode' =>
    have hrows : ∀ row ∈ p.evidence.drop (taken l n), row.countedAs = dispositionOf mode' := by
      cases mode' with
      | bill => exact fun row hrow => (hoverage hmode row hrow).1
      | flag => exact hflagged (by simp [hmode])
    by_cases hsame : mode' = mode
    · rw [← hsame, rowsCounted_all hrows, hrest, if_pos rfl]
    · rw [if_neg (by simpa using hsame), rowsCounted_zero]
      intro row hrow
      rw [hrows row hrow]
      cases mode <;> cases mode' <;> simp_all [dispositionOf]

lemma BilledAs.share (h : BilledAs env snapshot l p) (hcheck : AllowanceCheck l) (mode : OverageMode) :
    modeTotal p.materialized.overage.toList mode = (rowsCounted (dispositionOf mode) p.evidence : ℚ) + seatOverage env mode l := by
  rw [modeTotal_summary hcheck h.materialized]
  cases hdevice : isDeviceLine l.toCoverageLine with
  | true =>
    have hseat : l.lineType ≠ .perSeat := by
      intro hseat
      simp [isDeviceLine, hseat] at hdevice
    have hnone : seatOverage env mode l = 0 := if_neg fun hh => hseat hh.1
    rw [h.rowsCounted_eq hcheck hdevice, (h.device hdevice).1, overage_eq, hnone, add_zero]
    split <;> simp
  | false =>
    have hzero : rowsCounted (dispositionOf mode) p.evidence = 0 := by
      rw [h.other hdevice]
      rfl
    rw [hzero, Nat.cast_zero, zero_add, seatOverage]
    by_cases hseat : l.lineType = .perSeat
    · obtain ⟨n, hn, hquantity⟩ := h.seats hseat
      rw [hquantity, hn]
      by_cases hmode : l.overageMode = some mode
      · have hsome : l.includedQuantity ≠ none := by simp [included_none_iff hcheck, hmode]
        obtain ⟨included, hincluded⟩ := Option.ne_none_iff_exists'.mp hsome
        rw [if_pos hmode, if_pos ⟨hseat, hmode⟩, applyAllowance, hincluded]
        rfl
      · rw [if_neg hmode, if_neg (fun hh => hmode hh.2)]
    · have hnone : l.includedQuantity = none := by
        apply hcheck.counted
        cases htype : l.lineType <;> simp_all [isDeviceLine, allowsAllowance]
      rw [if_neg (by simp [(included_none_iff hcheck).mp hnone]), if_neg (fun hh => hseat hh.1)]

end Totals

section Run

variable {env : Surroundings}

lemma modeTotal_append (xs ys : List OverageSummary) (mode : OverageMode) :
    modeTotal (xs ++ ys) mode = modeTotal xs mode + modeTotal ys mode := by
  simp [modeTotal]

variable {snapshot : OrgDeviceSnapshot} {lines : List ContractLineRow} {db db' : Ledger} {result : GenerateResult}

lemma modeTotal_pieces {pieces : List Piece}
    (h : List.Forall₂ (BilledAs env snapshot) lines pieces) (hcheck : ∀ l ∈ lines, AllowanceCheck l) (mode : OverageMode)
    {rows : ContractLineRow → List PendingEvidence} (hrows : ∀ l p, (l, p) ∈ lines.zip pieces → rows l = p.evidence) :
    modeTotal (pieces.flatMap fun p => p.materialized.overage.toList) mode =
      (lines.map fun l => (rowsCounted (dispositionOf mode) (rows l) : ℚ)).sum + (lines.map (seatOverage env mode)).sum := by
  induction h with
  | nil => simp [modeTotal]
  | @cons l p lines pieces hp hs ih =>
    have ih := ih (fun l hl => hcheck l (mem_cons_of_mem _ hl)) fun l p hmem => hrows l p (mem_cons_of_mem _ hmem)
    have hhead : rows l = p.evidence := hrows l p mem_cons_self
    rw [flatMap_cons, modeTotal_append, ih, hp.share (hcheck l mem_cons_self), map_cons, map_cons, sum_cons,
      sum_cons, hhead]
    ring

lemma lineProblem_of_generated {run : BillingRun}
    (h : generateDueInvoice db run = .ok (result, db')) (hgenerated : result.generated = true) :
    lineProblem db.lines run.hasGroup = none := by
  have hskip : ∀ reason, (skip reason).generated ≠ true := fun reason => by simp [skip]
  rw [generateDueInvoice] at h
  split at h
  · split at h
    · cases h
      exact absurd hgenerated (hskip _)
    · rw [billPeriod] at h
      split at h
      · cases h
        exact absurd hgenerated (hskip _)
      split at h
      · cases h
        exact absurd hgenerated (hskip _)
      split at h
      · cases h
      · assumption
  · cases h
    exact absurd hgenerated (hskip _)

lemma resolvableLines_eq
    (h : lineProblem (lines.map fun l => l.toContractLine) (fun group => (snapshot.groups group).isSome) = none) :
    resolvableLines snapshot lines = lines.map ContractLineRow.toCoverageLine := by
  rw [lineProblem] at h
  split at h
  · cases h
  · next hsite =>
    rw [Option.map_eq_none_iff, List.find?_eq_none] at h
    rw [List.find?_eq_none] at hsite
    rw [resolvableLines, List.filter_eq_self.mpr]
    intro l hl
    have hmem : l.toContractLine ∈ lines.map fun l => l.toContractLine := mem_map_of_mem hl
    simp [h _ hmem, hsite _ hmem]

lemma written_of_generated {today : Breeze.Lib.Decimal.Text}
    {w : Written} (h : generateWithEvidence env db today lines = .ok (result, db', some w)) :
    writtenRows env lines = .ok w ∧ resolvableLines (snapshotFor env lines) lines = lines.map ContractLineRow.toCoverageLine := by
  obtain ⟨⟨result', db''⟩, hrun, h⟩ := bind_ok.mp h
  simp only at h
  split at h
  · next hgenerated =>
    obtain ⟨w', hw, h⟩ := bind_ok.mp h
    cases h
    exact ⟨hw, resolvableLines_eq (lineProblem_of_generated hrun hgenerated)⟩
  · cases h

end Run

/-- The evidence of a device-counted line: one row for each device it covers, in evidence order. -/
structure LineReconciled (snapshot : OrgDeviceSnapshot) (w : Written) (l : ContractLineRow) : Prop where
  devices : (evidenceOf w l).map PendingEvidence.deviceId = (coveredDevices snapshot l).map DeviceSnapshotRow.id
  once : ((evidenceOf w l).map PendingEvidence.deviceId).Nodup
  included : ∀ row ∈ (evidenceOf w l).take (taken l (coveredDevices snapshot l).length), row.countedAs = .included
  billed : l.overageMode = some .bill → ∀ row ∈ (evidenceOf w l).drop (taken l (coveredDevices snapshot l).length),
    row.countedAs = .overage ∧ ∃ line ∈ w.invoiceLines, line.id = row.invoiceLineId ∧ line.sourceId = l.id ∧
      line.quantity = (((coveredDevices snapshot l).length - taken l (coveredDevices snapshot l).length : ℕ) : ℚ)
  flagged : l.overageMode ≠ some .bill → ∀ row ∈ (evidenceOf w l).drop (taken l (coveredDevices snapshot l).length),
    row.countedAs = .flagged

section Assembly

variable {env : Surroundings} {lines : List ContractLineRow}

variable {snapshot : OrgDeviceSnapshot} {w : Written} {pieces : List Piece}

variable {l : ContractLineRow} {d : DeviceSnapshotRow}

lemma mem_coveredDevices :
    d ∈ coveredDevices snapshot l ↔ d ∈ snapshot.devices ∧ isCovered snapshot l.toCoverageLine d = true := by
  rw [coveredDevices, (orderDevicesForEvidence_perm _).mem_iff, mem_filter]

lemma coveredDevices_nodup (h : (snapshot.devices.map DeviceSnapshotRow.id).Nodup) (l : ContractLineRow) :
    ((coveredDevices snapshot l).map DeviceSnapshotRow.id).Nodup := by
  have hperm := (orderDevicesForEvidence_perm (snapshot.devices.filter (isCovered snapshot l.toCoverageLine))).map DeviceSnapshotRow.id
  rw [coveredDevices, hperm.nodup_iff]
  exact h.sublist (List.filter_sublist.map _)

lemma exists_piece {R : ContractLineRow → Piece → Prop} (h : List.Forall₂ R lines pieces) (hl : l ∈ lines) :
    ∃ p, (l, p) ∈ lines.zip pieces ∧ p ∈ pieces ∧ R l p := by
  rw [← map_fst_zip h.length_eq.le] at hl
  obtain ⟨⟨l, p⟩, hmem, rfl⟩ := List.mem_map.mp hl
  exact ⟨p, hmem, (of_mem_zip hmem).2, (List.forall₂_iff_zip.mp h).2 hmem⟩

lemma named_iff (h : List.Forall₂ (BilledAs env snapshot) lines pieces)
    (hcheck : ∀ l ∈ lines, AllowanceCheck l) (hdevices : (snapshot.devices.map DeviceSnapshotRow.id).Nodup)
    (hd : d ∈ snapshot.devices) : (pieces.flatMap Piece.evidence).any (fun row => row.deviceId == d.id) =
      ((lines.map ContractLineRow.toCoverageLine).filter isDeviceLine).any (isCovered snapshot · d) := by
  rw [Bool.eq_iff_iff, any_eq_true, any_eq_true]
  constructor
  · rintro ⟨row, hrow, hid⟩
    obtain ⟨p, hp, hrow⟩ := List.mem_flatMap.mp hrow
    obtain ⟨l, hl, hbilled⟩ := exists_line h hp
    obtain ⟨hdevice, -⟩ := hbilled.rows (hcheck l hl) hrow
    have hmem : row.deviceId ∈ p.evidence.map PendingEvidence.deviceId := mem_map_of_mem hrow
    rw [hbilled.deviceIds (hcheck l hl) hdevice, beq_iff_eq.mp hid] at hmem
    obtain ⟨d', hd', hsame⟩ := List.mem_map.mp hmem
    obtain ⟨hmem', hcovered⟩ := mem_coveredDevices.mp hd'
    obtain rfl := inj_on_of_nodup_map hdevices hmem' hd hsame
    exact ⟨l.toCoverageLine, List.mem_filter.mpr ⟨mem_map_of_mem hl, hdevice⟩, hcovered⟩
  · rintro ⟨line, hline, hcovered⟩
    obtain ⟨hmem, hdevice⟩ := List.mem_filter.mp hline
    obtain ⟨l, hl, rfl⟩ := List.mem_map.mp hmem
    obtain ⟨p, -, hp, hbilled⟩ := exists_piece h hl
    have hd' : d.id ∈ p.evidence.map PendingEvidence.deviceId := by
      rw [hbilled.deviceIds (hcheck l hl) hdevice]
      exact mem_map_of_mem (mem_coveredDevices.mpr ⟨hd, hcovered⟩)
    obtain ⟨row, hrow, hid⟩ := List.mem_map.mp hd'
    exact ⟨row, List.mem_flatMap.mpr ⟨p, hp, hrow⟩, beq_iff_eq.mpr hid⟩

/-- The written rows are made of one piece for each line, and the rows about a line are those of its piece. -/
structure Composed (env : Surroundings) (lines : List ContractLineRow) (w : Written) (pieces : List Piece) : Prop where
  billed : List.Forall₂ (BilledAs env (snapshotFor env lines)) lines pieces
  invoiceLines : w.invoiceLines = pieces.flatMap Piece.lines
  evidence : w.evidence = pieces.flatMap Piece.evidence
  rows : ∀ l p, (l, p) ∈ lines.zip pieces → evidenceOf w l = p.evidence
  totals : ∀ mode, modeTotal w.outcome.overages mode = modeTotal (pieces.flatMap fun p => p.materialized.overage.toList) mode
  flagged : w.outcome.flaggedTotal = modeTotal w.outcome.overages .flag
  overage : w.outcome.billedOverageTotal = modeTotal w.outcome.overages .bill
  uncovered : ∃ uncovered, uncoveredDevices env lines = .ok uncovered ∧ w.outcome.uncoveredTotal = uncovered.total

lemma writtenRows_composed (hids : Function.Injective env.lineId) (hlines : (lines.map fun l => l.id).Nodup)
    (hcheck : ∀ l ∈ lines, AllowanceCheck l) (h : writtenRows env lines = .ok w) : ∃ pieces, Composed env lines w pieces := by
  obtain ⟨draft, hdraft, h⟩ := bind_ok.mp h
  obtain ⟨outcome, houtcome, h⟩ := bind_ok.mp h
  cases h
  obtain ⟨uncovered, huncovered, houtcome⟩ := bind_ok.mp houtcome
  cases houtcome
  have hstart : Numbered env ({} : Draft).lines := rfl
  obtain ⟨pieces, hpieces, hnumbered, hdraftLines, hoverages, hevidence⟩ := foldlM_spec hstart hdraft
  rw [nil_append] at hdraftLines hoverages hevidence
  have hnodup : (draft.lines.map InvoiceLine.id).Nodup := by
    rw [hnumbered]
    exact List.nodup_range.map hids
  have howned : List.Forall₂ (Owned (ownerOf draft.lines)) lines pieces := by
    rw [forall₂_iff_zip] at hpieces ⊢
    refine ⟨hpieces.1, ?_⟩
    intro l p hmem row hrow
    obtain ⟨hl, hp⟩ := of_mem_zip hmem
    obtain ⟨-, line, hline, hid, hsource⟩ := (hpieces.2 hmem).rows (hcheck l hl) hrow
    have hline' : line ∈ draft.lines := by
      rw [hdraftLines]
      exact List.mem_flatMap.mpr ⟨p, hp, hline⟩
    rw [ownerOf_eq hnodup hline' hid, hsource]
  refine ⟨pieces, hpieces, hdraftLines, hevidence, ?_, fun mode => by rw [hoverages], rfl, rfl, uncovered, huncovered, rfl⟩
  intro l p hmem
  rw [evidenceOf, hevidence]
  exact filter_pieces howned hlines hmem

section

variable (h : Composed env lines w pieces) (hcheck : ∀ l ∈ lines, AllowanceCheck l)

include h hcheck

lemma Composed.lineReconciled (hdevices : (env.snapshot.devices.map DeviceSnapshotRow.id).Nodup)
    (hl : l ∈ lines) (hdevice : isDeviceLine l.toCoverageLine = true) : LineReconciled env.snapshot w l := by
  obtain ⟨p, hmem, hp, hbilled⟩ := exists_piece h.billed hl
  rw [snapshotFor, if_pos (show hasDeviceLine lines = true from any_eq_true.mpr ⟨l, hl, hdevice⟩)] at hbilled
  have hrows := h.rows l p hmem
  have hdeviceIds := hbilled.deviceIds (hcheck l hl) hdevice
  obtain ⟨hincluded, hoverage, hflagged⟩ := hbilled.dispositions (hcheck l hl) hdevice rfl
  constructor
  · rw [hrows, hdeviceIds]
  · rw [hrows, hdeviceIds]
    exact coveredDevices_nodup hdevices l
  · rwa [hrows]
  · intro hmode row hrow
    rw [hrows] at hrow
    obtain ⟨hcounted, line, hline, hfacts⟩ := hoverage hmode row hrow
    refine ⟨hcounted, line, ?_, hfacts⟩
    rw [h.invoiceLines]
    exact List.mem_flatMap.mpr ⟨p, hp, hline⟩
  · rwa [hrows]

lemma Composed.uncoveredTotal_eq (hdevices : (env.snapshot.devices.map DeviceSnapshotRow.id).Nodup)
    (hresolvable : resolvableLines (snapshotFor env lines) lines = lines.map ContractLineRow.toCoverageLine) :
    w.outcome.uncoveredTotal =
      if hasDeviceLine lines then (env.snapshot.devices.filter fun d => !w.evidence.any fun row => row.deviceId == d.id).length
      else 0 := by
  obtain ⟨uncovered, huncovered, htotal⟩ := h.uncovered
  rw [htotal]
  simp only [uncoveredDevices] at huncovered
  by_cases hdevice : hasDeviceLine lines = true
  · have hsnapshot : snapshotFor env lines = env.snapshot := if_pos hdevice
    have hbilled := h.billed
    rw [hsnapshot] at hbilled
    rw [if_pos hdevice, hresolvable, hsnapshot] at huncovered
    have hok : uncoveredByRole env.snapshot (lines.map ContractLineRow.toCoverageLine) = .ok uncovered := by
      revert huncovered
      cases uncoveredByRole env.snapshot (lines.map ContractLineRow.toCoverageLine) with
      | error message => nofun
      | ok uncovered' => exact fun huncovered => congrArg Except.ok (Except.ok.inj huncovered)
    rw [if_pos hdevice, uncoveredByRole_total hok, h.evidence]
    refine congrArg List.length (filter_congr ?_)
    intro d hd
    rw [named_iff hbilled hcheck hdevices hd]
  · rw [if_neg hdevice] at huncovered ⊢
    cases huncovered
    rfl

end

theorem evidence_reconciles (hids : Function.Injective env.lineId) (hlines : (lines.map fun l => l.id).Nodup)
    (hcheck : ∀ l ∈ lines, AllowanceCheck l) (hdevices : (env.snapshot.devices.map DeviceSnapshotRow.id).Nodup) :
    (∀ l ∈ lines, ∀ quantity ordered inserted m, lineQuantity env (snapshotFor env lines) l = .ok (quantity, some ordered) →
      materializeContractLineOntoInvoice env inserted l (applyAllowance quantity l .includedUnits) = .ok m →
      ∃ rows, evidenceForLine ordered (applyAllowance quantity l .includedUnits) m = .ok rows) ∧
    ∀ db today result db' w, generateWithEvidence env db today lines = .ok (result, db', some w) →
      (∀ l ∈ lines, isDeviceLine l.toCoverageLine = true → LineReconciled env.snapshot w l) ∧
      w.outcome.flaggedTotal =
        (lines.map fun l => (rowsCounted .flagged (evidenceOf w l) : ℚ)).sum + (lines.map (seatOverage env .flag)).sum ∧
      w.outcome.billedOverageTotal =
        (lines.map fun l => (rowsCounted .overage (evidenceOf w l) : ℚ)).sum + (lines.map (seatOverage env .bill)).sum ∧
      w.outcome.uncoveredTotal =
        if hasDeviceLine lines then
          (env.snapshot.devices.filter fun d => !w.evidence.any fun row => row.deviceId == d.id).length
        else 0 := by
  constructor
  · intro l hl quantity ordered inserted m hquantity hm
    have hdevice : isDeviceLine l.toCoverageLine = true := by
      by_contra hnot
      have hnone := (lineQuantity_other (by simpa using hnot) hquantity).1
      cases hnone
    obtain ⟨rfl, hordered⟩ := lineQuantity_device hdevice hquantity
    obtain rfl := Option.some.inj hordered
    exact ⟨_, evidenceForLine_eq (hcheck l hl) (orderDevicesForEvidence_idem _) (materialize_spec hm)⟩
  · intro db today result db' w hrun
    obtain ⟨hwritten, hresolvable⟩ := written_of_generated hrun
    obtain ⟨pieces, h⟩ := writtenRows_composed hids hlines hcheck hwritten
    refine ⟨fun l hl hdevice => h.lineReconciled hcheck hdevices hl hdevice, ?_, ?_,
      h.uncoveredTotal_eq hcheck hdevices hresolvable⟩
    · rw [h.flagged, h.totals]
      exact modeTotal_pieces h.billed hcheck .flag h.rows
    · rw [h.overage, h.totals]
      exact modeTotal_pieces h.billed hcheck .bill h.rows

end Assembly

section Sample

def threeDevices : Surroundings where
  snapshot := ⟨[⟨"d1", "beta", "server", none⟩, ⟨"d2", "alpha", "workstation", none⟩, ⟨"d3", "gamma", "server", none⟩], fun _ => none⟩
  seats := .ok 3
  invoice := .ok "invoice"
  priced := fun input => .ok ⟨input.unitPrice, input.taxable, input.costBasis, .contractSnapshot⟩
  lineId := fun n => String.ofList (List.replicate n 'x')
  computeLineTotal := fun _ _ => "1.00".toList
  multiplyToCurrency := fun _ _ => .ok "1.00".toList

def monthly : Ledger where
  contract :=
    { startDate := "2026-01-01".toList
      endDate := none
      intervalMonths := 1
      billingTiming := .advance
      status := .active
      nextBillingAt := some "2026-01-01".toList }
  lines := []
  periods := []

def deviceLine : ContractLineRow :=
  { id := "devices", lineType := .perDevice, description := "Devices", includedQuantity := some 2, overageMode := some .bill
    overageUnitPrice := some "1.00".toList }

def seatLine : ContractLineRow :=
  { id := "seats", lineType := .perSeat, description := "Seats", includedQuantity := some 1, overageMode := some .flag }

def flatLine : ContractLineRow := { id := "flat", lineType := .flat, description := "Fee" }

def writtenBy (lines : List ContractLineRow) : Option Written :=
  (generateWithEvidence threeDevices monthly "2026-01-01".toList lines).toOption.bind fun outcome => outcome.2.2

lemma lineId_injective : Function.Injective threeDevices.lineId := by
  intro m n h
  have hlists := congrArg (fun s => (String.toList s).length) h
  simpa [threeDevices] using hlists

theorem evidence_reconciles_threeDevices :
    ∃ result db' w, generateWithEvidence threeDevices monthly "2026-01-01".toList [deviceLine, seatLine] = .ok (result, db', some w) ∧
      LineReconciled threeDevices.snapshot w deviceLine := by
  have hcheck : ∀ l ∈ [deviceLine, seatLine], AllowanceCheck l := by
    intro l hl
    rcases List.mem_pair.mp hl with rfl | rfl
    · exact ⟨rfl, fun n hn => by cases hn; decide, rfl, nofun⟩
    · exact ⟨rfl, fun n hn => by cases hn; decide, rfl, nofun⟩
  have hwritten : (writtenBy [deviceLine, seatLine]).isSome = true := by decide +kernel
  obtain ⟨w, hw⟩ := Option.isSome_iff_exists.mp hwritten
  rw [writtenBy] at hw
  cases hrun : generateWithEvidence threeDevices monthly "2026-01-01".toList [deviceLine, seatLine] with
  | error e =>
    rw [hrun] at hw
    cases hw
  | ok outcome =>
    obtain ⟨result, db', written⟩ := outcome
    rw [hrun] at hw
    obtain rfl : written = some w := hw
    have hreconciled := (evidence_reconciles lineId_injective (by decide) hcheck (by decide)).2 _ _ _ _ _ hrun
    exact ⟨result, db', w, rfl, hreconciled.1 deviceLine mem_cons_self rfl⟩

/-- Two seats beyond the allowance are flagged and no device is; a flat contract leaves three devices
uncounted. -/
theorem evidence_totals_seats :
    ((writtenBy [deviceLine, seatLine]).map fun w => (w.outcome.flaggedTotal, rowsCounted .flagged w.evidence)) = some (2, 0) ∧
    ((writtenBy [flatLine]).map fun w => (w.outcome.uncoveredTotal, w.evidence.length)) = some (0, 0) ∧
    threeDevices.snapshot.devices.length = 3 := by
  refine ⟨?_, ?_, rfl⟩ <;> decide +kernel

end Sample

end Breeze.Contracts.EvidenceReconciliation
