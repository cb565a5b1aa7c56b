import Breeze.AiBudget.Caps

/-! What was spent is charged once: the usage rows and the session totals against the settled reservations. -/

namespace Breeze.AiBudget

open Lib Lib.Transactions

variable {budget : OrgId → EffectiveAiBudget} {fingerprint : Settlement → String} {strict : Prop} {start db db' : Database} {n : ℕ}
  {locks : List Row}

def ReservationRow.Records (fingerprint : Settlement → String) (row : ReservationRow) (s : Settlement) : Prop :=
  row.status = .settled ∧ row.actualCostCents = some s.actualCostCents ∧ row.settlementFingerprint = some (fingerprint s)

/-- The charges are those of settled reservations, each in its own rows and once, and they are all that was added. -/
structure Charged (fingerprint : Settlement → String) (start db : Database) : Prop where
  settled : ∀ id row, db.reservations.lookup id = some row → row.status = .settled →
    ∃ s, row.Records fingerprint s ∧ (∀ period, (id, s) ∈ (usageAt db (row.orgId, period, row.periodKey period)).charges) ∧
      ∀ session, row.sessionId = some session → ∃ t, db.sessions.lookup session = some t ∧ (id, s) ∈ t.charges
  usage : ∀ key id s, (id, s) ∈ (usageAt db key).charges → ∃ row, db.reservations.lookup id = some row ∧
    row.Records fingerprint s ∧ key.1 = row.orgId ∧ key.2.2 = row.periodKey key.2.1
  sessions : ∀ session t id s, db.sessions.lookup session = some t → (id, s) ∈ t.charges →
    ∃ row, db.reservations.lookup id = some row ∧ row.Records fingerprint s ∧ row.sessionId = some session
  usageOnce : ∀ key, ((usageAt db key).charges.map Prod.fst).Nodup
  sessionsOnce : ∀ session t, db.sessions.lookup session = some t → (t.charges.map Prod.fst).Nodup
  usageTotal : ∀ key, usageAt db key = (usageAt db key).charges.foldl (fun u c => u.charge c.1 c.2) (usageAt start key)
  sessionsTotal : ∀ session t, db.sessions.lookup session = some t →
    ∃ t₀, start.sessions.lookup session = some t₀ ∧ t = t.charges.foldl (fun u c => u.charge c.1 c.2) t₀

lemma Charged.of_same (h : Charged fingerprint start db) (husage : db'.usage = db.usage) (hsessions : db'.sessions = db.sessions)
    (hkeep : ∀ id row, db.reservations.lookup id = some row → row.status = .settled → db'.reservations.lookup id = some row)
    (hback : ∀ id row, db'.reservations.lookup id = some row → row.status = .settled → db.reservations.lookup id = some row) :
    Charged fingerprint start db' := by
  have hat : ∀ key, usageAt db' key = usageAt db key := fun key => by rw [usageAt, husage, usageAt]
  refine ⟨fun id row hrow hsettled => ?_, fun key id s hs => ?_, fun session t id s ht hs => ?_, fun key => ?_, ?_, fun key => ?_, ?_⟩
  · obtain ⟨s, hrecords, hcharged, hsession⟩ := h.settled id row (hback id row hrow hsettled) hsettled
    refine ⟨s, hrecords, fun period => ?_, fun session hx => ?_⟩
    · rw [hat]
      exact hcharged period
    · rw [hsessions]
      exact hsession session hx
  · rw [hat] at hs
    obtain ⟨row, hrow, hrecords, hkey⟩ := h.usage key id s hs
    exact ⟨row, hkeep id row hrow hrecords.1, hrecords, hkey⟩
  · rw [hsessions] at ht
    obtain ⟨row, hrow, hrecords, hx⟩ := h.sessions session t id s ht hs
    exact ⟨row, hkeep id row hrow hrecords.1, hrecords, hx⟩
  · rw [hat]
    exact h.usageOnce key
  · rw [hsessions]
    exact h.sessionsOnce
  · rw [hat]
    exact h.usageTotal key
  · rw [hsessions]
    exact h.sessionsTotal

section Settle

variable {id : ReservationId} {row : ReservationRow} {s : Settlement}

variable {org : OrgId} {id' : ReservationId}

lemma mem_usageAt_settle {key : UsageKey} {c : ReservationId × Settlement} :
    c ∈ (usageAt (db.settle fingerprint org id row s) key).charges ↔
      c ∈ (usageAt db key).charges ∨ (c = (id, s) ∧ key.1 = org ∧ key.2.2 = row.periodKey key.2.1) := by
  rw [usageAt_settle]
  split_ifs with hkey
  · simp [CostUsage.charge, hkey]
  · simp [hkey]

lemma lookup_sessions_settle {session : SessionId} : (db.settle fingerprint org id row s).sessions.lookup session =
      (db.sessions.lookup session).map fun t => if s.session = some session then t.charge id s else t := by
  rw [settle_sessions]
  cases hs : s.session with
  | none => simp
  | some x =>
    rw [Option.elim_some, Table.lookup_modify]
    by_cases hx : session = x
    · subst hx
      simp
    · have hx' : ¬ x = session := fun h => hx h.symm
      simp [hx, hx']

lemma lookup_settle_self (hrow : db.reservations.lookup id = some row) :
    (db.settle fingerprint org id row s).reservations.lookup id = some (row.settle fingerprint s) := by
  rw [settle_reservations]
  exact Table.lookup_modify_self hrow

lemma lookup_settle_ne (h : id' ≠ id) :
    (db.settle fingerprint org id row s).reservations.lookup id' = db.reservations.lookup id' := by
  rw [settle_reservations]
  exact Table.lookup_modify_ne _ _ h

lemma not_records (hopen : row.status.settleable = true) (s' : Settlement) : ¬ row.Records fingerprint s' := by
  rintro ⟨hsettled, -⟩
  rw [hsettled] at hopen
  cases hopen

lemma lookup_settle_of_records (hrow : db.reservations.lookup id = some row) (hopen : row.status.settleable = true) {row' : ReservationRow} {s' : Settlement} (hrow' : db.reservations.lookup id' = some row')
    (hrecords : row'.Records fingerprint s') : (db.settle fingerprint org id row s).reservations.lookup id' = some row' := by
  rw [lookup_settle_ne, hrow']
  rintro rfl
  obtain rfl : row = row' := Option.some.inj (hrow.symm.trans hrow')
  exact not_records hopen s' hrecords

section

variable (h : Charged fingerprint start db) (hrow : db.reservations.lookup id = some row) (hopen : row.status.settleable = true)

include h hrow hopen

lemma Charged.not_in_usage (key : UsageKey) : id ∉ (usageAt db key).charges.map Prod.fst := by
  intro hid
  obtain ⟨⟨_, s'⟩, hs', rfl⟩ := List.mem_map.mp hid
  obtain ⟨row', hrow', hrecords, -⟩ := h.usage key _ s' hs'
  obtain rfl : row = row' := Option.some.inj (hrow.symm.trans hrow')
  exact not_records hopen s' hrecords

lemma Charged.not_in_session {session : SessionId} {t : SessionRow} (ht : db.sessions.lookup session = some t) :
    id ∉ t.charges.map Prod.fst := by
  intro hid
  obtain ⟨⟨_, s'⟩, hs', rfl⟩ := List.mem_map.mp hid
  obtain ⟨row', hrow', hrecords, -⟩ := h.sessions session t _ s' ht hs'
  obtain rfl : row = row' := Option.some.inj (hrow.symm.trans hrow')
  exact not_records hopen s' hrecords

end

lemma nodup_charge {charges : List (ReservationId × Settlement)} (h : (charges.map Prod.fst).Nodup)
    (hid : id ∉ charges.map Prod.fst) : ((charges ++ [(id, s)]).map Prod.fst).Nodup := by
  rw [List.map_append, List.nodup_append]
  refine ⟨h, List.nodup_singleton _, fun a ha b hb => ?_⟩
  rw [List.map_singleton, List.mem_singleton] at hb
  rintro rfl
  rw [hb] at ha
  exact hid ha

lemma Charged.settle (h : Charged fingerprint start db) (hrow : db.reservations.lookup id = some row)
    (hopen : row.status.settleable = true) (hsession : row.sessionId = s.session)
    (hexists : ∀ session, s.session = some session → (db.sessions.lookup session).isSome = true) :
    Charged fingerprint start (db.settle fingerprint row.orgId id row s) where
  settled id' row' hrow' hsettled := by
    by_cases hid : id' = id
    · subst hid
      obtain rfl : row.settle fingerprint s = row' := Option.some.inj ((lookup_settle_self hrow).symm.trans hrow')
      refine ⟨s, ⟨rfl, rfl, rfl⟩, fun period => mem_usageAt_settle.mpr (Or.inr ⟨rfl, rfl, rfl⟩), fun session hx => ?_⟩
      have hs : s.session = some session := hsession.symm.trans hx
      obtain ⟨t, ht⟩ := Option.isSome_iff_exists.mp (hexists session hs)
      refine ⟨t.charge id' s, ?_, by simp [SessionRow.charge]⟩
      rw [lookup_sessions_settle, ht, Option.map_some, if_pos hs]
    · rw [lookup_settle_ne hid] at hrow'
      obtain ⟨s', hrecords, hcharged, hsessions⟩ := h.settled id' row' hrow' hsettled
      refine ⟨s', hrecords, fun period => mem_usageAt_settle.mpr (Or.inl (hcharged period)), fun session hx => ?_⟩
      obtain ⟨t, ht, hmem⟩ := hsessions session hx
      rw [lookup_sessions_settle, ht, Option.map_some]
      refine ⟨_, rfl, ?_⟩
      split_ifs
      · exact List.mem_append_left _ hmem
      · exact hmem
  usage key id' s' hs' := by
    rcases mem_usageAt_settle.mp hs' with hs' | ⟨heq, hkey⟩
    · obtain ⟨row', hrow', hrecords, hkey⟩ := h.usage key id' s' hs'
      exact ⟨row', lookup_settle_of_records hrow hopen hrow' hrecords, hrecords, hkey⟩
    · cases heq
      exact ⟨_, lookup_settle_self hrow, ⟨rfl, rfl, rfl⟩, hkey⟩
  sessions session t' id' s' ht' hs' := by
    rw [lookup_sessions_settle] at ht'
    obtain ⟨t, ht, rfl⟩ := Option.map_eq_some_iff.mp ht'
    have hold : (id', s') ∈ t.charges → ∃ row', (db.settle fingerprint row.orgId id row s).reservations.lookup id' = some row' ∧
        row'.Records fingerprint s' ∧ row'.sessionId = some session := by
      intro hmem
      obtain ⟨row', hrow', hrecords, hx⟩ := h.sessions session t id' s' ht hmem
      exact ⟨row', lookup_settle_of_records hrow hopen hrow' hrecords, hrecords, hx⟩
    split_ifs at hs' with hx
    · rcases List.mem_append.mp hs' with hs' | hs'
      · exact hold hs'
      · cases List.mem_singleton.mp hs'
        exact ⟨_, lookup_settle_self hrow, ⟨rfl, rfl, rfl⟩, hsession.trans hx⟩
    · exact hold hs'
  usageOnce key := by
    rw [usageAt_settle]
    split_ifs
    · exact nodup_charge (h.usageOnce key) (h.not_in_usage hrow hopen key)
    · exact h.usageOnce key
  sessionsOnce session t' ht' := by
    rw [lookup_sessions_settle] at ht'
    obtain ⟨t, ht, rfl⟩ := Option.map_eq_some_iff.mp ht'
    split_ifs
    · exact nodup_charge (h.sessionsOnce session t ht) (h.not_in_session hrow hopen ht)
    · exact h.sessionsOnce session t ht
  usageTotal key := by
    rw [usageAt_settle]
    split_ifs
    · have htotal := h.usageTotal key
      change (usageAt db key).charge id s = ((usageAt db key).charges ++ [(id, s)]).foldl _ _
      rw [List.foldl_append, ← htotal]
      rfl
    · exact h.usageTotal key
  sessionsTotal session t' ht' := by
    rw [lookup_sessions_settle] at ht'
    obtain ⟨t, ht, rfl⟩ := Option.map_eq_some_iff.mp ht'
    obtain ⟨t₀, ht₀, htotal⟩ := h.sessionsTotal session t ht
    refine ⟨t₀, ht₀, ?_⟩
    split_ifs
    · change t.charge id s = (t.charges ++ [(id, s)]).foldl _ _
      rw [List.foldl_append, ← htotal]
      rfl
    · exact htotal

end Settle

lemma Change.final (h : Change budget fingerprint strict n locks db db') {id : ReservationId} {row : ReservationRow}
    (hrow : db.reservations.lookup id = some row) (hfinal : row.status = .settled ∨ row.status = .released) :
    db'.reservations.lookup id = some row := by
  obtain ⟨row', hrow'⟩ := h.persists hrow
  have hcame := h.came hrow'
  rw [hrow] at hcame
  cases hcame with
  | same => exact hrow'
  | changed _ horg hid hkept hopen => rcases hfinal with h | h <;> (rw [h] at hopen; cases hopen)
  | expired _ hid hlapsed =>
    rcases hlapsed with rfl | ⟨hlive, -⟩
    · exact hrow'
    · rcases hfinal with h | h <;> rcases hlive with h' | h' <;> (rw [h] at h'; cases h')

lemma Change.charged (hchange : Change budget fingerprint strict n locks db db') (h : Charged fingerprint start db) :
    Charged fingerprint start db' := by
  have hkeep : ∀ id row, db.reservations.lookup id = some row → row.status = .settled → db'.reservations.lookup id = some row :=
    fun id row hrow hsettled => hchange.final hrow (Or.inl hsettled)
  cases hchange with
  | same => exact h
  | settle id row s horg hid hrow hstatus hsession hlocked hlive =>
    exact h.settle hrow hstatus hsession fun session hs => (hlocked session hs).2
  | reserve row horg hnew hactive hfits =>
    refine h.of_same rfl rfl hkeep fun id row' hrow' hsettled => ?_
    rcases Table.of_insert hrow' with ⟨-, rfl⟩ | ⟨-, hrow'⟩
    · cases hactive.symm.trans hsettled
    · exact hrow'
  | mark id row now horg hid hrow hactive hlive | release id row horg hid hrow hactive =>
    refine h.of_same rfl rfl hkeep fun id' row' hrow' hsettled => ?_
    rcases Table.of_modify hrow' with ⟨-, r, -, rfl⟩ | ⟨-, hrow'⟩
    · cases hsettled
    · exact hrow'
  | expire ids hids hlocked hstale =>
    refine h.of_same (by rw [expireAll_eq]) (by rw [expireAll_eq]) hkeep fun id row' hrow' hsettled => ?_
    rw [lookup_expireAll db hids] at hrow'
    split_ifs at hrow'
    · obtain ⟨row, -, rfl⟩ := Option.map_eq_some_iff.mp hrow'
      cases hsettled
    · exact hrow'

lemma charged_start (hempty : start.reservations = ∅) (husage : ∀ key, (usageAt start key).charges = [])
    (hsessions : ∀ session t, start.sessions.lookup session = some t → t.charges = []) : Charged fingerprint start start where
  settled id row hrow := by
    rw [hempty] at hrow
    cases hrow
  usage key id s hs := by
    rw [husage] at hs
    cases hs
  sessions session t id s ht hs := by
    rw [hsessions session t ht] at hs
    cases hs
  usageOnce key := by
    rw [husage]
    exact List.nodup_nil
  sessionsOnce session t ht := by
    rw [hsessions session t ht]
    exact List.nodup_nil
  usageTotal key := by
    rw [husage]
    rfl
  sessionsTotal session t ht := by
    refine ⟨t, ht, ?_⟩
    rw [hsessions session t ht]
    rfl

lemma meetsAll_always (c : State) (moves : Moves) :
    Config.MeetsAll (system budget fingerprint) (fun c m => Meets (fun _ _ => true) c m = true) c moves := by
  induction moves generalizing c with
  | nil => trivial
  | cons m moves ih =>
    refine ⟨?_, ih _⟩
    cases m with
    | advance n =>
      simp only [Meets, Option.all_eq_true]
      intro t _
      split <;> rfl
    | start i | stop n | nature e => rfl

theorem charged_exactly_once (budget : OrgId → EffectiveAiBudget) (fingerprint : Settlement → String) (start : Database)
    (moves more : Moves) (hempty : start.reservations = ∅) (husage : ∀ key, (usageAt start key).charges = [])
    (hsessions : ∀ session t, start.sessions.lookup session = some t → t.charges = []) :
    Charged fingerprint start (Config.run (system budget fingerprint) { state := start } moves).state ∧
      ∀ id row, (Config.run (system budget fingerprint) { state := start } moves).state.reservations.lookup id = some row →
        row.status = .settled ∨ row.status = .released →
        (Config.run (system budget fingerprint) { state := start } (moves ++ more)).state.reservations.lookup id = some row := by
  have hready : ∀ db i, true = true → (rules budget fingerprint False).ready i db := fun _ _ _ hstrict => hstrict.elim
  have hkept := kept_run hready (fun _ _ _ _ => Change.charged) (fun e _ h => by cases e <;> exact h.of_same rfl rfl (fun _ _ hrow _ => hrow) fun _ _ hrow _ => hrow)
    (kept_start (charged_start hempty husage hsessions) hempty) (meetsAll_always _ moves)
  refine ⟨hkept.state, fun id row hrow hfinal => ?_⟩
  have hlater : Kept (rules budget fingerprint False) (fun _ _ => True) (fun db => db.reservations.lookup id = some row) Fresh
      (Config.run (system budget fingerprint) { state := start } moves) := { hkept with state := hrow }
  have hend := (kept_run hready (fun _ _ _ _ hchange hrow => hchange.final hrow hfinal) (fun e _ hrow => by cases e <;> exact hrow)
    hlater (meetsAll_always _ more)).state
  rwa [Config.run, Config.run, ← List.foldl_append] at hend

def costDigest (s : Settlement) : String := String.ofList (Nat.toDigits 10 s.actualCostCents)

def spend (cost : ℤ) : Call :=
  .settle { orgId := acme, reservationId := 0, actualCostCents := cost, inputTokens := 10, outputTokens := 5 }

def sweepWaits : Moves :=
  complete 0 (dispatch "first") ++ [.nature (.tick 1800000), .start (spend 40000000)] ++ List.replicate 4 (.advance 1) ++
    [.start (.expire 500), .advance 2, .advance 2, .advance 2] ++ List.replicate 12 (.advance 1) ++ List.replicate 8 (.advance 2)

def retries : Moves := complete 3 (spend 40000000) ++ complete 4 (spend 50000000)

theorem sweep_waits_charged_once :
    ((Config.run (system oneDollarADay costDigest) { state := { organizations := [acme] } }
        sweepWaits).state.reservations.lookup 0).any (·.status = .settled) = true ∧
      used (Config.run (system oneDollarADay costDigest) { state := { organizations := [acme] } }
        (sweepWaits ++ retries)).state (acme, .daily, "2026-11-15") = 40000000 ∧
      Charged costDigest { organizations := [acme] }
        (Config.run (system oneDollarADay costDigest) { state := { organizations := [acme] } } sweepWaits).state := by
  refine ⟨by decide +kernel, by decide +kernel, ?_⟩
  exact (charged_exactly_once oneDollarADay costDigest { organizations := [acme] } sweepWaits retries rfl (fun _ => rfl)
    fun _ _ h => by cases h).1

theorem admitted_terms_kept (budget : OrgId → EffectiveAiBudget) (fingerprint : Settlement → String) (start : Database)
    (moves more : Moves) (id : ReservationId) :
    let terms := fun moves => ((Config.run (system budget fingerprint) { state := { start with reservations := ∅ } }
      moves).state.reservations.lookup id).map (·.terms)
    terms moves = none ∨ terms (moves ++ more) = terms moves := by
  intro terms
  have hready : ∀ db i, true = true → (rules budget fingerprint False).ready i db := fun _ _ _ hstrict => hstrict.elim
  have hkept := kept_run (I := fun _ => True) hready (fun _ _ _ _ _ h => h) (fun _ _ h => h) (kept_start trivial rfl)
    (meetsAll_always { state := { start with reservations := ∅ } } moves)
  cases ht : terms moves with
  | none => exact Or.inl rfl
  | some t =>
    have hend := (kept_run (I := fun db => (db.reservations.lookup id).map (·.terms) = some t) hready
      (fun _ _ _ _ hchange => hchange.terms) (fun e _ h => by cases e <;> exact h) { hkept with state := ht }
      (meetsAll_always _ more)).state
    rw [Config.run, Config.run, ← List.foldl_append] at hend
    exact Or.inr hend

end Breeze.AiBudget
