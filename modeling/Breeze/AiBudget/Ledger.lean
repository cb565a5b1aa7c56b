import Breeze.Lib.Commits
import Breeze.AiBudget.Reservations

/-! The calls on the ledger beside each other: what the commit of each can change, and what the rows it holds keep for it. -/

namespace Breeze.AiBudget

open Lib Lib.Transactions

inductive Call where
  | reserve (input : ReserveInput)
  | settle (input : SettleInput)
  | mark (org : OrgId) (id : ReservationId)
  | release (org : OrgId) (id : ReservationId)
  | expire (limit : ℤ)

def Call.program (budget : OrgId → EffectiveAiBudget) (fingerprint : Settlement → String) : Call → ℕ → Step Unit
  | .reserve input, n => do
    let _ ← reserveAiBudget budget input n
  | .settle input, _ => do
    let _ ← settleAiBudgetReservation fingerprint input
  | .mark org id, _ => do
    let _ ← markAiBudgetReservationIndeterminate org id
  | .release org id, _ => do
    let _ ← releaseUnusedAiBudgetReservation org id
  | .expire limit, _ => do
    let _ ← expireStaleAiBudgetReservations limit

inductive Event where
  | tick (ms : ℕ)
  | clientUsage (key : UsageKey) (total : ℤ)

def nature : Event → Database → Database
  | .tick ms, db => { db with clock := db.clock + ms }
  | .clientUsage key total, db => { db with clientUsage := db.clientUsage.insert key total }

def system (budget : OrgId → EffectiveAiBudget) (fingerprint : Settlement → String) : System Database Row Call Event where
  program := Call.program budget fingerprint
  nature := nature

def SettlesHold (db : Database) : Call → Bool
  | .settle input => (db.reservations.lookup input.reservationId).all fun row =>
      row.orgId ≠ input.orgId ∨ row.status = .settled ∨
        (row.holds db.clock ∧ input.actualCostCents ≤ row.reservedCostCents)
  | _ => true

def MarksLive (db : Database) : Call → Bool
  | .mark org id => (db.reservations.lookup id).all fun row =>
      row.orgId ≠ org ∨ row.status ≠ .active ∨ db.clock < row.expiresAt
  | _ => true

def Database.settle (db : Database) (fingerprint : Settlement → String) (org : OrgId) (id : ReservationId) (row : ReservationRow)
    (s : Settlement) : Database :=
  let charged := s.session.elim db fun session => db.chargeSession session id s
  ((charged.chargeUsage (org, .daily, row.dailyPeriodKey) id s).chargeUsage (org, .monthly, row.monthlyPeriodKey) id s).setReservation
    id (·.settle fingerprint s)

def Database.expireAll (db : Database) (ids : List ReservationId) : Database :=
  ids.foldl (fun db id => db.setReservation id ReservationRow.expire) db

def usageAt (db : Database) (key : UsageKey) : CostUsage := (db.usage.lookup key).getD {}

section Lookups

variable (db : Database)

lemma usageAt_chargeUsage (key key' : UsageKey) (id : ReservationId) (s : Settlement) :
    usageAt (db.chargeUsage key id s) key' = if key' = key then (usageAt db key').charge id s else usageAt db key' := by
  simp only [usageAt, Database.chargeUsage, Table.lookup_insert_ite]
  split_ifs with h
  · rw [h, Option.getD_some]
  · rfl

lemma used_eq (key : UsageKey) : used db key = (usageAt db key).totalCostCents := by
  rw [used, usageAt]
  cases db.usage.lookup key <;> rfl

section

variable (fingerprint : Settlement → String) (org : OrgId) (id : ReservationId) (row : ReservationRow) (s : Settlement)

@[simp] lemma settle_clock : (db.settle fingerprint org id row s).clock = db.clock := by
  rw [Database.settle]
  cases s.session <;> rfl

@[simp] lemma settle_reservations :
    (db.settle fingerprint org id row s).reservations = db.reservations.modify id (·.settle fingerprint s) := by
  rw [Database.settle]
  cases s.session <;> rfl

@[simp] lemma settle_usage :
    (db.settle fingerprint org id row s).usage =
      ((db.chargeUsage (org, .daily, row.dailyPeriodKey) id s).chargeUsage (org, .monthly, row.monthlyPeriodKey) id s).usage := by
  rw [Database.settle]
  cases s.session <;> rfl

@[simp] lemma settle_sessions :
    (db.settle fingerprint org id row s).sessions =
      s.session.elim db.sessions fun session => db.sessions.modify session (·.charge id s) := by
  rw [Database.settle]
  cases s.session <;> rfl

lemma usageAt_settle (key : UsageKey) :
    usageAt (db.settle fingerprint org id row s) key =
      if key.1 = org ∧ key.2.2 = row.periodKey key.2.1 then (usageAt db key).charge id s else usageAt db key := by
  have husage : usageAt (db.settle fingerprint org id row s) key = usageAt ((db.chargeUsage (org, .daily, row.dailyPeriodKey) id
      s).chargeUsage (org, .monthly, row.monthlyPeriodKey) id s) key := by
    simp only [usageAt, settle_usage]
  rw [husage, usageAt_chargeUsage, usageAt_chargeUsage]
  obtain ⟨o, period, k⟩ := key
  by_cases hkey : o = org ∧ k = row.periodKey period
  · obtain ⟨rfl, rfl⟩ := hkey
    cases period <;> simp [ReservationRow.periodKey]
  · rw [if_neg hkey]
    cases period <;> simp_all [ReservationRow.periodKey]

lemma used_settle (key : UsageKey) :
    used (db.settle fingerprint org id row s) key =
      used db key + if key.1 = org ∧ key.2.2 = row.periodKey key.2.1 then (s.actualCostCents : ℤ) else 0 := by
  rw [used_eq, used_eq, usageAt_settle]
  split_ifs
  · rfl
  · rw [add_zero]

end

lemma expireAll_eq (ids : List ReservationId) :
    db.expireAll ids =
      { db with reservations := ids.foldl (fun t id => t.modify id ReservationRow.expire) db.reservations } := by
  induction ids generalizing db with
  | nil => rfl
  | cons id ids ih => exact ih (db.setReservation id ReservationRow.expire)

lemma lookup_expireAll {ids : List ReservationId} (hids : ids.Nodup) (id : ReservationId) :
    (db.expireAll ids).reservations.lookup id =
      if id ∈ ids then (db.reservations.lookup id).map ReservationRow.expire else db.reservations.lookup id := by
  induction ids generalizing db with
  | nil => rfl
  | cons a ids ih =>
    obtain ⟨ha, hids⟩ := List.nodup_cons.mp hids
    change ((db.setReservation a ReservationRow.expire).expireAll ids).reservations.lookup id = _
    rw [ih _ hids]
    by_cases hid : id = a
    · subst hid
      rw [if_neg ha, if_pos List.mem_cons_self]
      exact (Table.lookup_modify id id _ _).trans (if_pos rfl)
    · have hkept : (db.setReservation a ReservationRow.expire).reservations.lookup id = db.reservations.lookup id :=
        Table.lookup_modify_ne _ _ hid
      rw [hkept]
      simp only [List.mem_cons, hid, false_or]

end Lookups

section Changes

variable (budget : OrgId → EffectiveAiBudget) (fingerprint : Settlement → String)

/-- The commit of a call; `strict` is whether the calls are known to settle live holds only and to mark none that lapsed. -/
inductive Change (strict : Prop) (n : ℕ) (locks : List Row) (db : Database) : Database → Prop
  | same : Change strict n locks db db
  | reserve (row : ReservationRow) (horg : .organization row.orgId ∈ locks) (hnew : db.reservations.lookup n = none)
      (hactive : row.status = .active)
      (hfits : ∀ period cap, (budget row.orgId).get period = some cap →
        used db (row.orgId, period, row.periodKey period) + held db db.clock (row.orgId, period, row.periodKey period) +
          row.reservedCostCents ≤ (cap * moneyScale : ℕ)) :
      Change strict n locks db (db.addReservation n row)
  | settle (id : ReservationId) (row : ReservationRow) (s : Settlement) (horg : .organization row.orgId ∈ locks)
      (hid : .reservation id ∈ locks) (hrow : db.reservations.lookup id = some row) (hstatus : row.status.settleable = true)
      (hsession : row.sessionId = s.session)
      (hlocked : ∀ session, s.session = some session → .session session ∈ locks ∧ (db.sessions.lookup session).isSome = true)
      (hlive : strict → row.holds db.clock = true ∧ s.actualCostCents ≤ row.reservedCostCents) :
      Change strict n locks db (db.settle fingerprint row.orgId id row s)
  | mark (id : ReservationId) (row : ReservationRow) (now : ℤ) (horg : .organization row.orgId ∈ locks)
      (hid : .reservation id ∈ locks) (hrow : db.reservations.lookup id = some row) (hactive : row.status = .active)
      (hlive : strict → db.clock < row.expiresAt) :
      Change strict n locks db (db.setReservation id (·.mark now))
  | release (id : ReservationId) (row : ReservationRow) (horg : .organization row.orgId ∈ locks) (hid : .reservation id ∈ locks)
      (hrow : db.reservations.lookup id = some row) (hactive : row.status = .active) :
      Change strict n locks db (db.setReservation id ReservationRow.release)
  | expire (ids : List ReservationId) (hids : ids.Nodup) (hlocked : ∀ id ∈ ids, .reservation id ∈ locks)
      (hstale : ∀ id ∈ ids, ∃ row, db.reservations.lookup id = some row ∧ row.stale db.clock = true) :
      Change strict n locks db (db.expireAll ids)

def Lapsed (row row' : ReservationRow) : Prop :=
  row' = row ∨ (row.status = .active ∨ row.status = .indeterminate) ∧ row' = row.expire

lemma Lapsed.trans {row row' row'' : ReservationRow} (h : Lapsed row row') (h' : Lapsed row' row'') : Lapsed row row'' := by
  rcases h with rfl | ⟨hlive, rfl⟩
  · exact h'
  · rcases h' with rfl | ⟨hlive', -⟩
    · exact Or.inr ⟨hlive, rfl⟩
    · rcases hlive' with h | h <;> cases h

def Protects : Row → Database → Database → Prop
  | .organization org, db, db' =>
    (∀ period key, used db' (org, period, key) = used db (org, period, key)) ∧
      ∀ id row', db'.reservations.lookup id = some row' → row'.orgId = org →
        ∃ row, db.reservations.lookup id = some row ∧ Lapsed row row'
  | .reservation id, db, db' => ∀ row, db.reservations.lookup id = some row → db'.reservations.lookup id = some row
  | .session id, db, db' => db'.sessions.lookup id = db.sessions.lookup id
  | .usage _, _, _ => True

lemma Protects.refl (k : Row) (db : Database) : Protects k db db := by
  cases k with
  | organization org => exact ⟨fun _ _ => rfl, fun id row' h _ => ⟨row', h, Or.inl rfl⟩⟩
  | reservation id => exact fun _ h => h
  | session id => rfl
  | usage key => trivial

lemma Lapsed.orgId {row row' : ReservationRow} (h : Lapsed row row') : row'.orgId = row.orgId := by
  rcases h with rfl | ⟨-, rfl⟩ <;> rfl

variable {db'' : Database} {locks' : List Row} {id : ReservationId}

lemma Protects.trans {k : Row} {db db' : Database} (h : Protects k db db') (h' : Protects k db' db'') : Protects k db db'' := by
  cases k with
  | organization org =>
    refine ⟨fun period key => (h'.1 period key).trans (h.1 period key), fun id row'' hrow'' horg => ?_⟩
    obtain ⟨row', hrow', hlapsed'⟩ := h'.2 id row'' hrow'' horg
    obtain ⟨row, hrow, hlapsed⟩ := h.2 id row' hrow' (hlapsed'.orgId ▸ horg)
    exact ⟨row, hrow, hlapsed.trans hlapsed'⟩
  | reservation id => exact fun row hrow => h' row (h row hrow)
  | session id => exact Eq.trans h' h
  | usage key => trivial

structure Rely (n : ℕ) (locks : List Row) (db db' : Database) : Prop where
  clock : db.clock ≤ db'.clock
  own : db.reservations.lookup n = none → db'.reservations.lookup n = none
  persists : ∀ id row, db.reservations.lookup id = some row → ∃ row', db'.reservations.lookup id = some row'
  rows : ∀ k ∈ locks, Protects k db db'

variable {budget fingerprint} {strict : Prop} {n m : ℕ} {locks : List Row} {db db' : Database}

lemma Rely.refl : Rely n locks db db := ⟨le_refl _, id, fun _ row h => ⟨row, h⟩, fun k _ => Protects.refl k db⟩

lemma Rely.trans (h₁ : Rely n locks db db') (h₂ : Rely n locks db' db'') : Rely n locks db db'' where
  clock := h₁.clock.trans h₂.clock
  own h := h₂.own (h₁.own h)
  persists id row h := by
    obtain ⟨row', h'⟩ := h₁.persists id row h
    exact h₂.persists id row' h'
  rows k hk := (h₁.rows k hk).trans (h₂.rows k hk)

lemma Rely.mono (hsub : locks ⊆ locks') (h : Rely n locks' db db') : Rely n locks db db' :=
  ⟨h.clock, h.own, h.persists, fun k hk => h.rows k (hsub hk)⟩

lemma Rely.lookup (h : Rely n locks db db') (hid : .reservation id ∈ locks)
    {row : ReservationRow} (hrow : db.reservations.lookup id = some row) : db'.reservations.lookup id = some row :=
  h.rows _ hid row hrow

lemma Change.clock (h : Change budget fingerprint strict n locks db db') : db'.clock = db.clock := by
  cases h with
  | same | reserve row | mark id row now | release id row => rfl
  | settle id row s => exact settle_clock ..
  | expire ids => rw [expireAll_eq]

/-- Where a reservation comes from: it is new, or was there, and then settled, marked, released or swept. -/
inductive Came (n : ℕ) (locks : List Row) (id : ReservationId) (row' : ReservationRow) : Option ReservationRow → Prop
  | same : Came n locks id row' (some row')
  | new (hid : id = n) (horg : .organization row'.orgId ∈ locks) (hactive : row'.status = .active) : Came n locks id row' none
  | changed (row : ReservationRow) (horg : .organization row.orgId ∈ locks) (hid : .reservation id ∈ locks)
      (hkept : row'.orgId = row.orgId) (hopen : row.status.settleable = true) : Came n locks id row' (some row)
  | expired (row : ReservationRow) (hid : .reservation id ∈ locks) (hlapsed : Lapsed row row') : Came n locks id row' (some row)

lemma came_modify {id' : ReservationId} {set : ReservationRow → ReservationRow} {row row' : ReservationRow}
    {t : Table ReservationId ReservationRow} (hrow : t.lookup id = some row) (horg : .organization row.orgId ∈ locks)
    (hid : .reservation id ∈ locks) (hkept : (set row).orgId = row.orgId) (hopen : row.status.settleable = true)
    (h : (t.modify id set).lookup id' = some row') : Came n locks id' row' (t.lookup id') := by
  rcases Table.of_modify h with ⟨rfl, r, hr, rfl⟩ | ⟨-, hr⟩
  · obtain rfl : row = r := Option.some.inj (hrow.symm.trans hr)
    rw [hr]
    exact .changed row horg hid hkept hopen
  · rw [hr]
    exact .same

/-- What a reservation was admitted with: the row without the columns that later calls write. -/
def ReservationRow.terms (row : ReservationRow) : ReservationRow :=
  { row with actualCostCents := none, status := .active, settlementFingerprint := none, expiresAt := 0, expiryReason := none }

section

variable (h : Change budget fingerprint strict n locks db db')

include h

lemma Change.came {row' : ReservationRow}
    (hrow' : db'.reservations.lookup id = some row') : Came n locks id row' (db.reservations.lookup id) := by
  cases h with
  | same =>
    rw [hrow']
    exact .same
  | reserve row horg hnew hactive hfits =>
    rcases Table.of_insert hrow' with ⟨rfl, rfl⟩ | ⟨-, hr⟩
    · rw [hnew]
      exact .new rfl horg hactive
    · rw [hr]
      exact .same
  | settle id₀ row s horg hid hrow hstatus hsession hlocked hlive =>
    rw [settle_reservations] at hrow'
    exact came_modify hrow horg hid rfl hstatus hrow'
  | mark id₀ row now horg hid hrow hactive hlive | release id₀ row horg hid hrow hactive =>
    exact came_modify hrow horg hid rfl (by rw [hactive]; rfl) hrow'
  | expire ids hids hlocked hstale =>
    rw [lookup_expireAll db hids] at hrow'
    split_ifs at hrow' with hid
    · obtain ⟨row, hrow, hrow'⟩ := Option.map_eq_some_iff.mp hrow'
      obtain ⟨r, hr, hrs⟩ := hstale id hid
      obtain rfl : row = r := Option.some.inj (hrow.symm.trans hr)
      rw [hrow]
      refine .expired row (hlocked id hid) (Or.inr ⟨?_, hrow'.symm⟩)
      simp only [ReservationRow.stale, decide_eq_true_eq] at hrs
      exact hrs.1
    · rw [hrow']
      exact .same

lemma Change.terms {t : ReservationRow} (ht : (db.reservations.lookup id).map (·.terms) = some t) :
    (db'.reservations.lookup id).map (·.terms) = some t := by
  obtain ⟨row, hrow, rfl⟩ := Option.map_eq_some_iff.mp ht
  have hmodify : ∀ id₀ set, (∀ r : ReservationRow, (set r).terms = r.terms) →
      ((db.reservations.modify id₀ set).lookup id).map (·.terms) = some row.terms := by
    intro id₀ set hset
    rw [Table.lookup_modify]
    split_ifs with hid
    · rw [← hid, hrow]
      exact congrArg some (hset row)
    · exact ht
  cases h with
  | same => exact ht
  | reserve row₀ horg hnew hactive hfits =>
    exact congrArg (Option.map (·.terms)) (Table.lookup_insert_of_some hnew hrow)
  | settle id₀ row₀ s horg hid hrow₀ hstatus hsession hlocked hlive =>
    rw [settle_reservations]
    exact hmodify _ _ fun _ => rfl
  | mark id₀ row₀ now horg hid hrow₀ hactive hlive | release id₀ row₀ horg hid hrow₀ hactive => exact hmodify _ _ fun _ => rfl
  | expire ids hids hlocked hstale =>
    rw [lookup_expireAll db hids, hrow]
    split_ifs <;> rfl

lemma Change.persists {row : ReservationRow}
    (hrow : db.reservations.lookup id = some row) : ∃ row', db'.reservations.lookup id = some row' := by
  obtain ⟨row', hrow', -⟩ := Option.map_eq_some_iff.mp (h.terms (congrArg (Option.map (·.terms)) hrow))
  exact ⟨row', hrow'⟩

lemma Change.used_eq {org : OrgId} (hk : Row.organization org ∉ locks)
    (period : Period) (key : String) : used db' (org, period, key) = used db (org, period, key) := by
  cases h with
  | same | reserve row | mark id row now | release id row => rfl
  | settle id row s horg hid hrow hstatus hsession hlocked hlive =>
    have hne : org ≠ row.orgId := fun heq => hk (heq ▸ horg)
    rw [used_settle, if_neg fun hc => hne hc.1, add_zero]
  | expire ids => rw [expireAll_eq]; rfl

lemma Change.sessions_eq {session : SessionId}
    (hk : Row.session session ∉ locks) : db'.sessions.lookup session = db.sessions.lookup session := by
  cases h with
  | same | reserve row | mark id row now | release id row => rfl
  | settle id row s horg hid hrow hstatus hsession hlocked hlive =>
    rw [settle_sessions]
    cases hs : s.session with
    | none => rfl
    | some x =>
      have hne : session ≠ x := fun heq => hk (heq ▸ (hlocked x hs).1)
      exact Table.lookup_modify_ne _ _ hne
  | expire ids => rw [expireAll_eq]

lemma Change.protects {k : Row} (hk : k ∉ locks) : Protects k db db' := by
  cases k with
  | organization org =>
    refine ⟨h.used_eq hk, fun id row' hrow' horg' => ?_⟩
    have hcame := h.came hrow'
    generalize hr : db.reservations.lookup id = r at hcame
    cases hcame with
    | same => exact ⟨row', rfl, Or.inl rfl⟩
    | new hid horg hactive => exact absurd (horg' ▸ horg) hk
    | changed row horg hid hkept hopen => exact absurd (horg' ▸ hkept ▸ horg) hk
    | expired row hid hlapsed => exact ⟨row, rfl, hlapsed⟩
  | reservation id =>
    intro row hrow
    obtain ⟨row', hrow'⟩ := h.persists hrow
    have hcame := h.came hrow'
    rw [hrow] at hcame
    cases hcame with
    | same => exact hrow'
    | changed _ horg hid | expired _ hid => exact absurd hid hk
  | session id => exact h.sessions_eq hk
  | usage key => trivial

lemma Change.own (hnm : n ≠ m) (hm : db.reservations.lookup m = none) :
    db'.reservations.lookup m = none := by
  by_contra hne
  obtain ⟨row', hrow'⟩ := Option.ne_none_iff_exists'.mp hne
  have hcame := h.came hrow'
  rw [hm] at hcame
  cases hcame with
  | new hid => exact hnm hid.symm

end

lemma Change.mono (hsub : locks ⊆ locks') (h : Change budget fingerprint strict n locks db db') :
    Change budget fingerprint strict n locks' db db' := by
  cases h with
  | same => exact .same
  | reserve row horg hnew hactive hfits => exact .reserve row (hsub horg) hnew hactive hfits
  | settle id row s horg hid hrow hstatus hsession hlocked hlive =>
    exact .settle id row s (hsub horg) (hsub hid) hrow hstatus hsession (fun x hx => ⟨hsub (hlocked x hx).1, (hlocked x hx).2⟩) hlive
  | mark id row now horg hid hrow hactive hlive => exact .mark id row now (hsub horg) (hsub hid) hrow hactive hlive
  | release id row horg hid hrow hactive => exact .release id row (hsub horg) (hsub hid) hrow hactive
  | expire ids hids hlocked hstale => exact .expire ids hids (fun id hid => hsub (hlocked id hid)) hstale

variable (budget fingerprint strict) in
def rules : Rules Database Row Call where
  change _ := Change budget fingerprint strict
  rely _ := Rely
  ready i db := strict → SettlesHold db i = true ∧ MarksLive db i = true

def Fresh (m : ℕ) (db : Database) : Prop := db.reservations.lookup m = none

lemma sound {I : Database → Prop} (hI : ∀ n locks db db', Change budget fingerprint strict n locks db db' → I db → I db') :
    (rules budget fingerprint strict).Sound (fun _ _ => True) I Fresh where
  refl := Rely.refl
  trans := Rely.trans
  rely_mono := Rely.mono
  change_mono := Change.mono
  frame hnm _ hlocks h := ⟨h.clock.ge, h.own hnm, fun _ _ => h.persists, fun k hk => h.protects (hlocks k hk)⟩
  keeps h := hI _ _ _ _ h
  fresh hnm h := h.own hnm

end Changes

end Breeze.AiBudget
