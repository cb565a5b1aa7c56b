import Breeze.Lib.Stateful
import Breeze.AiBudget.Ledger

/-! Every call commits one of these changes, whatever runs beside it. -/

namespace Breeze.AiBudget

open Lib Lib.Transactions
open Lib.Stateful (bind_ok)

variable {budget : OrgId → EffectiveAiBudget} {fingerprint : Settlement → String} {strict : Prop} {i : Call} {n : ℕ}
  {locks : List Row} {db : Database}

section Statements

variable {α β : Type} {own : Database → Database} {post : β → List Row → (Database → Database) → Database → Prop}

def Committing (budget : OrgId → EffectiveAiBudget) (fingerprint : Settlement → String) (strict : Prop) (i : Call) (n : ℕ)
    (r : Except String α) (locks : List Row) (own : Database → Database) (db : Database) : Prop :=
  ∀ a, r = .ok a → ∀ db', Rely n locks db db' → (rules budget fingerprint strict).ready i db' →
    Change budget fingerprint strict n locks db' (own db')

lemma Committing.error {e : String} : Committing budget fingerprint strict i n (.error e : Except String α) locks own db :=
  fun a h => by cases h

lemma Committing.same {r : Except String α} : Committing budget fingerprint strict i n r locks id db :=
  fun _ _ _ _ _ => .same

lemma sound_rules : (rules budget fingerprint strict).Sound (fun _ _ => True) (fun _ => True) Fresh :=
  sound fun _ _ _ _ _ _ => trivial

lemma commits_transaction {p : Step (Except String α)}
    (h : Commits (rules budget fingerprint strict) i n p [] id db (Committing budget fingerprint strict i n)) :
    Commits (rules budget fingerprint strict) i n (transaction p >>= fun _ => pure ()) [] id db fun _ _ _ _ => True := by
  have hcommits : Commits (rules budget fingerprint strict) i n (transaction p) [] id db fun _ _ _ _ => True := by
    refine h.bind fun r locks own db₁ hr => ?_
    cases r with
    | error e => trivial
    | ok a => exact fun db' hrely hready => ⟨hr a rfl db' hrely hready, trivial⟩
  exact hcommits.bind fun _ _ _ _ _ => trivial

lemma commits_lockOrganizationRow (org : OrgId) :
    Commits (rules budget fingerprint strict) i n (lockOrganizationRow org) locks own db fun r locks' own' db' =>
      own' = own ∧ Rely n locks db db' ∧ ∀ a, r = .ok a → locks' = .organization org :: locks := by
  rw [lockOrganizationRow]
  refine Commits.see_bind fun db₁ h₁ => ?_
  split_ifs
  · exact Commits.lockRow_bind fun db₂ h₂ => ⟨rfl, h₁.trans h₂, fun _ _ => rfl⟩
  · exact ⟨rfl, h₁, fun a ha => by cases ha⟩

lemma commits_selectForUpdate (test : ReservationId → ReservationRow → Bool) :
    Commits (rules budget fingerprint strict) i n (selectForUpdate test) locks id db fun r locks' own' db' =>
      own' = id ∧ Rely n locks db db' ∧ locks ⊆ locks' ∧ ∀ id' row, r = some (id', row) →
        locks' = .reservation id' :: locks ∧ db'.reservations.lookup id' = some row ∧ test id' row = true := by
  rw [selectForUpdate]
  refine Commits.see_bind fun db₁ h₁ => ?_
  cases hhead : ((id db₁).reservations.keysWhere test).head? with
  | none => exact ⟨rfl, h₁, List.Subset.refl _, fun id' row h => by cases h⟩
  | some id' =>
    have hsub : locks ⊆ .reservation id' :: locks := List.subset_cons_self _ _
    refine Commits.lockRow_bind fun db₂ h₂ => Commits.see_bind fun db₃ h₃ => ?_
    refine ⟨rfl, (h₁.trans h₂).trans (h₃.mono hsub), hsub, fun id'' row h => ?_⟩
    obtain ⟨row', hrow', heq⟩ := Option.map_eq_some_iff.mp h
    obtain ⟨hrow', htest⟩ := Option.filter_eq_some_iff.mp hrow'
    cases heq
    exact ⟨rfl, hrow', htest⟩

lemma commits_withReservation {org : OrgId} {id' : ReservationId} {f : ReservationId → ReservationRow → Step (Except String α)}
    (h : ∀ row db', Rely n [] db db' → db'.reservations.lookup id' = some row → row.orgId = org →
      Commits (rules budget fingerprint strict) i n (f id' row) [.reservation id', .organization org] id db'
        (Committing budget fingerprint strict i n)) :
    Commits (rules budget fingerprint strict) i n (withReservation org id' f) [] id db
      (Committing budget fingerprint strict i n) := by
  rw [withReservation]
  refine (commits_lockOrganizationRow _).bind fun r locks₁ own₁ db₁ h₁ => ?_
  obtain ⟨rfl, hrely₁, hlocks₁⟩ := h₁
  cases r with
  | error e => exact Committing.error
  | ok _ =>
    obtain rfl := hlocks₁ _ rfl
    refine (commits_selectForUpdate _).bind fun found locks₂ own₂ db₂ h₂ => ?_
    obtain ⟨rfl, hrely₂, hsub₂, hfound⟩ := h₂
    cases found with
    | none => exact Committing.error
    | some found =>
      obtain ⟨id₀, row⟩ := found
      obtain ⟨rfl, hrow, htest⟩ := hfound id₀ row rfl
      obtain ⟨rfl, horg⟩ : id₀ = id' ∧ row.orgId = org := of_decide_eq_true htest
      exact h row db₂ (hrely₁.trans (hrely₂.mono (List.nil_subset _))) hrow horg

lemma commits_updateReservation {id' : ReservationId} {row : ReservationRow} {test : ReservationRow → Bool}
    {set : ReservationRow → ReservationRow} (hid : .reservation id' ∈ locks) (hrow : db.reservations.lookup id' = some row)
    (htest : test row = true) (hown : ∀ db, (own db).reservations = db.reservations) :
    Commits (rules budget fingerprint strict) i n (updateReservation id' test set) locks own db fun r locks' own' db' =>
      r = true ∧ own' = (fun x => (own x).setReservation id' set) ∧ locks ⊆ locks' ∧ Rely n locks db db' := by
  have hlater : ∀ db', Rely n locks db db' → (own db').reservations.lookup id' = some row := by
    intro db' h
    rw [hown]
    exact h.lookup hid hrow
  have hone : ∀ db : Database, (db.reservations.keysWhere fun id₀ row => id₀ = id' ∧ test row) = [] ∨
      (db.reservations.keysWhere fun id₀ row => id₀ = id' ∧ test row) = [id'] := by
    intro db
    exact Table.keysWhere_one (fun id₀ row h => by simpa using (of_decide_eq_true h).1) _
  rw [updateReservation]
  refine (Commits.update_one sound_rules (.reservation id') ?_).bind fun rows locks' own' db' h => ?_
  · intro db
    rcases hone db with h | h
    · exact Or.inl (by rw [h]; rfl)
    · exact Or.inr (by rw [h]; rfl)
  · obtain ⟨hrely, hsub, hcase⟩ := h
    rcases hcase with ⟨rfl, -, db₀, db₁, h₀, h₁, hfail⟩ | ⟨rfl, -, rfl, -⟩
    · exfalso
      rcases hfail with hfail | hfail
      · have hmem : id' ∈ (own db₀).reservations.keysWhere fun id₀ row => id₀ = id' ∧ test row :=
          Table.mem_keysWhere.mpr ⟨row, hlater db₀ h₀, by simp [htest]⟩
        rw [List.map_eq_nil_iff.mp hfail] at hmem
        cases hmem
      · rw [hlater db₁ (h₀.trans h₁), Option.any_some, htest] at hfail
        cases hfail
    · exact ⟨rfl, rfl, hsub, hrely⟩

lemma commits_updateSession (org : OrgId) (session : SessionId) (id' : ReservationId) (s : Settlement) :
    Commits (rules budget fingerprint strict) i n (updateSession org session id' s) locks id db fun r locks' own' db' =>
      Rely n locks db db' ∧ locks ⊆ locks' ∧ (r = true → .session session ∈ locks' ∧
        own' = (fun x => x.chargeSession session id' s) ∧ (db'.sessions.lookup session).isSome = true) := by
  rw [updateSession]
  refine (Commits.update_one sound_rules (.session session) ?_).bind fun rows locks' own' db' h => ?_
  · intro db
    split_ifs
    · exact Or.inr rfl
    · exact Or.inl rfl
  · obtain ⟨hrely, hsub, hcase⟩ := h
    refine ⟨hrely, hsub, fun hr => ?_⟩
    rcases hcase with ⟨rfl, -⟩ | ⟨-, rfl, rfl, db₀, -, htest⟩
    · cases hr
    · refine ⟨List.mem_cons_self, rfl, ?_⟩
      obtain ⟨row, hrow, -⟩ := (Option.any_eq_true _ _).mp htest
      rw [id_eq] at hrow
      rw [hrow]
      rfl

end Statements

section Settle

lemma moneyString_ok {value : Option ℤ} {label : String} {m : ℕ} (h : moneyString value label = .ok m) : value = some (m : ℤ) := by
  cases value with
  | none => cases h
  | some v =>
    simp only [moneyString] at h
    split_ifs at h with hv
    cases h
    rw [Int.toNat_of_nonneg (by omega)]

variable {input : SettleInput} {s : Settlement} {row : ReservationRow}

lemma settlementOf_cost (h : settlementOf input = .ok s) : (s.actualCostCents : ℤ) = input.actualCostCents := by
  obtain ⟨cost, hcost, h⟩ := bind_ok.mp h
  obtain ⟨inputTokens, -, h⟩ := bind_ok.mp h
  obtain ⟨outputTokens, -, h⟩ := bind_ok.mp h
  obtain ⟨messageCount, -, h⟩ := bind_ok.mp h
  obtain ⟨toolExecutionCount, -, h⟩ := bind_ok.mp h
  obtain ⟨turnCount, -, h⟩ := bind_ok.mp h
  cases h
  exact (Option.some.inj (moneyString_ok hcost)).symm

lemma commits_upsertUsage (key : UsageKey) (id' : ReservationId) (s : Settlement) {own : Database → Database} :
    Commits (rules budget fingerprint strict) i n (upsertUsage key id' s) locks own db fun _ locks' own' db' =>
      Rely n locks db db' ∧ locks' = .usage key :: locks ∧ own' = fun x => (own x).chargeUsage key id' s := by
  rw [upsertUsage]
  exact Commits.lockRow_bind fun db₁ h₁ => ⟨h₁, rfl, rfl⟩

lemma chargeSession_reservations (s : Settlement) (id' : ReservationId) (db : Database) :
    (s.session.elim db fun session => db.chargeSession session id' s).reservations = db.reservations := by
  cases s.session <;> rfl

section

variable (hs : settlementOf input = .ok s) (horg : row.orgId = input.orgId) (hheld : .organization input.orgId ∈ locks)
  (hid : .reservation input.reservationId ∈ locks) (hrow : db.reservations.lookup input.reservationId = some row)
  (hstatus : row.status.settleable = true) (hsession : row.sessionId = s.session)
  (hlocked : ∀ session, s.session = some session → .session session ∈ locks ∧ (db.sessions.lookup session).isSome = true)

include hs horg hheld hid hrow hstatus hsession hlocked

lemma committing_settle {r : Except String SettleResult} :
    Committing budget fingerprint strict (.settle input) n r locks
      (fun x => x.settle fingerprint input.orgId input.reservationId row s) db := by
  intro a ha db' hrely hready
  have hrow' := hrely.lookup hid hrow
  rw [← horg] at hheld ⊢
  refine .settle input.reservationId row s hheld hid hrow' hstatus hsession (fun session hx => ?_) fun hstrict => ?_
  · obtain ⟨hheld, hexists⟩ := hlocked session hx
    exact ⟨hheld, by rw [hrely.rows _ hheld]; exact hexists⟩
  · have hsettles := (hready hstrict).1
    have hnot : row.status ≠ .settled := by
      intro h
      rw [h] at hstatus
      cases hstatus
    simp only [SettlesHold, hrow', Option.all_some, decide_eq_true_eq, horg, hnot, ne_eq, not_true_eq_false, false_or] at hsettles
    refine ⟨hsettles.1, ?_⟩
    have := hsettles.2
    rw [← settlementOf_cost hs] at this
    exact_mod_cast this

lemma commits_settleRow :
    Commits (rules budget fingerprint strict) (.settle input) n (settleRow fingerprint input.orgId input.reservationId row s) locks
      (fun x => s.session.elim x fun session => x.chargeSession session input.reservationId s) db
      (Committing budget fingerprint strict (.settle input) n) := by
  rw [settleRow]
  refine (commits_upsertUsage _ _ _).bind fun _ locks₁ own₁ db₁ h => ?_
  obtain ⟨h₁, rfl, rfl⟩ := h
  refine (commits_upsertUsage _ _ _).bind fun _ locks₂ own₂ db₂ h => ?_
  obtain ⟨h₂, rfl, rfl⟩ := h
  have hrely : Rely n locks db db₂ := h₁.trans (h₂.mono (List.subset_cons_self _ _))
  have hsub : locks ⊆ .usage (input.orgId, .monthly, row.monthlyPeriodKey) ::
      .usage (input.orgId, .daily, row.dailyPeriodKey) :: locks := by
    intro k hk
    simp [hk]
  refine Commits.bind (commits_updateReservation (hsub hid) (hrely.lookup hid hrow) (by exact hstatus)
    (by exact chargeSession_reservations s _)) fun r locks₃ own₃ db₃ h => ?_
  obtain ⟨rfl, rfl, hsub₃, h₃⟩ := h
  have hrely₃ := hrely.trans (h₃.mono hsub)
  have hsub' : locks ⊆ locks₃ := List.Subset.trans hsub hsub₃
  refine committing_settle hs horg (hsub' hheld) (hsub' hid) (hrely₃.lookup hid hrow) hstatus hsession fun session hx => ?_
  obtain ⟨hheld, hexists⟩ := hlocked session hx
  exact ⟨hsub' hheld, by rw [hrely₃.rows _ hheld]; exact hexists⟩

end

lemma commits_settle (input : SettleInput) :
    Commits (rules budget fingerprint strict) (.settle input) n (Call.program budget fingerprint (.settle input) n) [] id db
      fun _ _ _ _ => True := by
  simp only [Call.program, settleAiBudgetReservation]
  cases hs : settlementOf input with
  | error e => trivial
  | ok s =>
    refine commits_transaction (commits_withReservation fun row db₁ h₁ hrow horg => ?_)
    by_cases hsettled : row.status = .settled
    · rw [if_pos hsettled]
      split_ifs
      · exact Committing.error
      · exact Committing.same
    rw [if_neg hsettled]
    by_cases hreleased : row.status = .released
    · rw [if_pos hreleased]
      exact Committing.error
    rw [if_neg hreleased]
    have hstatus : row.status.settleable = true := by
      cases hst : row.status <;> simp_all [Status.settleable]
    cases hsession : s.session with
    | none =>
      dsimp only
      by_cases hbound : row.sessionId.isSome = true
      · rw [if_pos hbound]
        exact Committing.error
      rw [if_neg hbound]
      have hown : (id : Database → Database) = fun x =>
          s.session.elim x fun session => x.chargeSession session input.reservationId s := by
        funext x
        rw [hsession]
        rfl
      rw [hown]
      refine commits_settleRow hs horg (by simp) (by simp) hrow hstatus ?_ fun session hx => ?_
      · rw [hsession]
        exact Option.not_isSome_iff_eq_none.mp hbound
      · rw [hsession] at hx
        cases hx
    | some session =>
      dsimp only
      by_cases hbound : row.sessionId = some session
      · rw [if_neg (not_not.mpr hbound)]
        refine (commits_updateSession _ _ _ _).bind fun r locks₂ own₂ db₂ h => ?_
        obtain ⟨h₂, hsub₂, hupdated⟩ := h
        cases r with
        | false => exact Committing.error
        | true =>
          obtain ⟨hheld, rfl, hexists⟩ := hupdated rfl
          have hown : (fun x : Database => x.chargeSession session input.reservationId s) = fun x =>
              s.session.elim x fun session => x.chargeSession session input.reservationId s := by
            funext x
            rw [hsession]
            rfl
          rw [hown]
          refine commits_settleRow hs horg (hsub₂ (by simp)) (hsub₂ (by simp)) (h₂.lookup (by simp) hrow) hstatus ?_
            fun session' hx => ?_
          · rw [hbound, hsession]
          · obtain rfl : session = session' := Option.some.inj (hsession.symm.trans hx)
            exact ⟨hheld, hexists⟩
      · rw [if_pos hbound]
        exact Committing.error

end Settle

section Outcomes

lemma commits_mark (org : OrgId) (id' : ReservationId) :
    Commits (rules budget fingerprint strict) (.mark org id') n (Call.program budget fingerprint (.mark org id') n) [] id db
      fun _ _ _ _ => True := by
  refine commits_transaction (Commits.see_bind fun db₁ h₁ => commits_withReservation fun row db₂ h₂ hrow horg => ?_)
  cases hstatus : row.status with
  | settled | indeterminate | expired => exact Committing.same
  | released => exact Committing.error
  | active =>
    refine (commits_updateReservation List.mem_cons_self hrow rfl fun _ => rfl).bind fun r locks₃ own₃ db₃ h => ?_
    obtain ⟨-, rfl, hsub, h₃⟩ := h
    intro a ha db' hrely hready
    have hrow' := hrely.lookup (hsub List.mem_cons_self) (h₃.lookup List.mem_cons_self hrow)
    refine .mark id' row db₁.clock (hsub (by simp [horg])) (hsub List.mem_cons_self) hrow' hstatus fun hstrict => ?_
    have hmarks := (hready hstrict).2
    simpa [MarksLive, hrow', horg, hstatus] using hmarks

lemma commits_release (org : OrgId) (id' : ReservationId) :
    Commits (rules budget fingerprint strict) (.release org id') n (Call.program budget fingerprint (.release org id') n) [] id db
      fun _ _ _ _ => True := by
  refine commits_transaction (commits_withReservation fun row db₁ h₁ hrow horg => ?_)
  cases hstatus : row.status with
  | released | expired => exact Committing.same
  | settled | indeterminate => exact Committing.error
  | active =>
    refine (commits_updateReservation List.mem_cons_self hrow rfl fun _ => rfl).bind fun r locks₂ own₂ db₂ h => ?_
    obtain ⟨-, rfl, hsub, h₂⟩ := h
    intro a ha db' hrely hready
    have hrow' := hrely.lookup (hsub List.mem_cons_self) (h₂.lookup List.mem_cons_self hrow)
    exact .release id' row (hsub (by simp [horg])) (hsub List.mem_cons_self) hrow' hstatus

lemma commits_sweep (now : ℤ) (limit : ℕ) :
    Commits (rules budget fingerprint strict) i n (sweep now limit) [] id db fun _ locks' own' db' =>
      ∃ ids : List ReservationId, ids.Nodup ∧ own' = (·.expireAll ids) ∧ db.clock ≤ db'.clock ∧
        ∀ id' ∈ ids, .reservation id' ∈ locks' ∧ ∃ row, db'.reservations.lookup id' = some row ∧ row.stale now = true := by
  refine Commits.see_bind fun db₁ h₁ => Commits.updateEach sound_rules ?_ ?_ ?_ fun changed locks db₂ _ h₂ hsub hpass => ?_
  · exact (Table.nodup_keysWhere _ _).map fun _ _ h => Row.reservation.inj h
  · intro row hrow row' hrow' hne x
    obtain ⟨id₁, -, rfl⟩ := List.mem_map.mp hrow
    obtain ⟨id₂, -, rfl⟩ := List.mem_map.mp hrow'
    have hids : id₁ ≠ id₂ := fun h => hne (h ▸ rfl)
    dsimp only [Database.setReservation]
    rw [Table.lookup_modify_ne _ _ hids]
  · intro row hrow locks x x' hlocked hx hx'
    obtain ⟨id₁, hid₁, rfl⟩ := List.mem_map.mp hrow
    obtain ⟨r, hr, -⟩ := Table.mem_keysWhere.mp hid₁
    obtain ⟨r', hr'⟩ := hx.persists id₁ r hr
    dsimp only [id_eq]
    rw [hx'.lookup hlocked hr', hr']
  · obtain ⟨ids, hids, rfl⟩ := List.sublist_map_iff.mp hsub
    refine ⟨ids, (Table.nodup_keysWhere _ _).sublist hids, ?_, h₁.clock.trans h₂.clock, fun id' hid' => ?_⟩
    · funext x
      simp only [setAll, List.foldl_map, Database.expireAll, id_eq]
    · obtain ⟨hlocked, htest⟩ := hpass _ (List.mem_map_of_mem hid')
      obtain ⟨row, hrow, hstale⟩ := (Option.any_eq_true _ _).mp htest
      exact ⟨hlocked, row, hrow, (Bool.and_eq_true_iff.mp hstale).1⟩

lemma commits_expire (limit : ℤ) :
    Commits (rules budget fingerprint strict) (.expire limit) n (Call.program budget fingerprint (.expire limit) n) [] id db
      fun _ _ _ _ => True := by
  simp only [Call.program, expireStaleAiBudgetReservations]
  by_cases hlimit : limit < 1 ∨ 9007199254740991 < limit
  · rw [if_pos hlimit]
    trivial
  rw [if_neg hlimit]
  refine commits_transaction (Commits.see_bind fun db₁ h₁ => (commits_sweep _ _).bind fun changed locks own db₂ h => ?_)
  obtain ⟨ids, hids, rfl, hclock, hpass⟩ := h
  refine Commits.see_bind fun db₃ h₃ a ha db' h' hready => .expire ids hids (fun id' hid' => (hpass id' hid').1) fun id' hid' => ?_
  obtain ⟨hlocked, row, hrow, hstale⟩ := hpass id' hid'
  refine ⟨row, h'.lookup hlocked (h₃.lookup hlocked hrow), ?_⟩
  have hlater : db₁.clock ≤ db'.clock := hclock.trans (h₃.clock.trans h'.clock)
  simp only [ReservationRow.stale, decide_eq_true_eq, id_eq] at hstale ⊢
  exact ⟨hstale.1, hstale.2.trans hlater⟩

end Outcomes

section Reserve

lemma fence_ok {cap : Option ℕ} {used held : ℤ} {inFlight spent : DenialReason} {room : Option ℤ}
    (h : fence cap used held inFlight spent = .ok room) : room = remaining cap used held := by
  rw [fence] at h
  split_ifs at h
  cases h
  rfl

def Within (bound : Option ℤ) (most : ℤ) : Prop := ∃ m, bound = some m ∧ m ≤ most

variable {a b hold : Option ℤ} {most now : ℤ} {cap : ℕ} {input : ReserveInput}

lemma Within.left (h : Within a most) : Within (Option.merge min a b) most := by
  obtain ⟨m, rfl, hm⟩ := h
  cases b with
  | none => exact ⟨m, rfl, hm⟩
  | some z => exact ⟨min m z, rfl, (min_le_left _ _).trans hm⟩

lemma Within.right (h : Within b most) : Within (Option.merge min a b) most := by
  obtain ⟨m, rfl, hm⟩ := h
  cases a with
  | none => exact ⟨m, rfl, hm⟩
  | some z => exact ⟨min z m, rfl, (min_le_right _ _).trans hm⟩

lemma admission_within {b : EffectiveAiBudget}
    (h : admission b input db now = .ok hold) (period : Period) (hcap : b.get period = some cap) :
    Within hold ((cap * moneyScale : ℕ) - max 0 (used db (input.orgId, period, (periodKeys input.now).get period)) -
      max 0 (held db now (input.orgId, period, (periodKeys input.now).get period) : ℤ)) := by
  obtain ⟨daily, hdaily, h⟩ := bind_ok.mp h
  obtain ⟨monthly, hmonthly, h⟩ := bind_ok.mp h
  have hfence : Within (Option.merge min daily monthly) ((cap * moneyScale : ℕ) -
      max 0 (used db (input.orgId, period, (periodKeys input.now).get period)) -
      max 0 (held db now (input.orgId, period, (periodKeys input.now).get period) : ℤ)) := by
    rw [fence_ok hdaily, fence_ok hmonthly]
    cases period with
    | daily =>
      have hcap : b.dailyBudgetCents = some cap := hcap
      rw [hcap]
      exact Within.left ⟨_, rfl, le_refl _⟩
    | monthly =>
      have hcap : b.monthlyBudgetCents = some cap := hcap
      rw [hcap]
      exact Within.right ⟨_, rfl, le_refl _⟩
  cases hclient : input.clientBudget with
  | none =>
    rw [hclient] at h
    cases h
    exact hfence.left
  | some caps =>
    rw [hclient] at h
    dsimp only at h
    by_cases huncapped : caps.uncapped = true
    · rw [if_pos huncapped] at h
      cases h
      exact hfence.left
    · rw [if_neg huncapped] at h
      obtain ⟨clientDaily, -, h⟩ := bind_ok.mp h
      obtain ⟨clientMonthly, -, h⟩ := bind_ok.mp h
      cases h
      exact hfence.left.left.left

lemma holdFor_fits {b : EffectiveAiBudget} {reserved : ℕ} {label : String}
    (h : holdFor b input db now = .ok hold) (hreserved : moneyString hold label = .ok reserved) (period : Period)
    (hcap : b.get period = some cap) : used db (input.orgId, period, (periodKeys input.now).get period) +
      held db now (input.orgId, period, (periodKeys input.now).get period) + reserved ≤ (cap * moneyScale : ℕ) := by
  have huncapped : ¬ input.uncapped b = true := by
    intro hnone
    have hboth := (Bool.and_eq_true_iff.mp hnone).1
    rw [Caps.uncapped, Bool.and_eq_true_iff, Option.isNone_iff_eq_none, Option.isNone_iff_eq_none] at hboth
    cases period with
    | daily => cases hcap.symm.trans hboth.1
    | monthly => cases hcap.symm.trans hboth.2
  rw [holdFor, if_neg huncapped] at h
  obtain ⟨m, rfl, hm⟩ := admission_within h period hcap
  obtain rfl : m = reserved := Option.some.inj (moneyString_ok hreserved)
  have hused := le_max_right 0 (used db (input.orgId, period, (periodKeys input.now).get period))
  have hheld := le_max_right 0 (held db now (input.orgId, period, (periodKeys input.now).get period) : ℤ)
  omega

lemma Rely.held_le {db' : Database} {org : OrgId} (h : Rely n locks db db') (horg : .organization org ∈ locks)
    (hnow : now ≤ db'.clock) (period : Period) (key : String) : held db' db'.clock (org, period, key) ≤ held db now (org, period, key) := by
  refine Table.sumOf_le fun id' row' hrow' hshare => ?_
  have hcounts : row'.orgId = org ∧ row'.periodKey period = key ∧ row'.holds db'.clock = true := by
    by_contra hno
    exact hshare (if_neg hno)
  obtain ⟨row, hrow, hlapsed⟩ := (h.rows _ horg).2 id' row' hrow' hcounts.1
  rcases hlapsed with rfl | ⟨-, rfl⟩
  · have hholds : row'.holds now = true := by
      have hheld := hcounts.2.2
      simp only [ReservationRow.holds, decide_eq_true_eq] at hheld ⊢
      exact ⟨hheld.1, hnow.trans_lt hheld.2⟩
    refine ⟨row', hrow, le_of_eq ?_⟩
    rw [ReservationRow.share, if_pos hcounts, ReservationRow.share, if_pos ⟨hcounts.1, hcounts.2.1, hholds⟩]
  · cases hcounts.2.2

lemma commits_admitNew (horg : .organization input.orgId ∈ locks) (hnow : now ≤ db.clock)
    (hfresh : db.reservations.lookup n = none) :
    Commits (rules budget fingerprint strict) i n (admitNew (budget input.orgId) input n now) locks id db
      (Committing budget fingerprint strict i n) := by
  rw [admitNew]
  refine Commits.see_bind fun db₁ h₁ => ?_
  dsimp only
  split_ifs
  · exact Committing.error
  · exact Committing.same
  refine Commits.see_bind fun db₂ h₂ => ?_
  cases hhold : holdFor (budget input.orgId) input (id db₂) now with
  | error denial => exact Committing.same
  | ok hold =>
    dsimp only
    cases hreserved : moneyString hold "reservedCostCents" with
    | error e => exact Committing.error
    | ok reserved =>
      refine Commits.put_bind ?_
      intro a ha db' h' hready
      refine .reserve _ horg (h'.own (h₂.own (h₁.own hfresh))) rfl fun period cap hcap => ?_
      have hclock : now ≤ db'.clock := hnow.trans (h₁.clock.trans (h₂.clock.trans h'.clock))
      have hheld := h'.held_le horg hclock period ((periodKeys input.now).get period)
      have hused := (h'.rows _ horg).1 period ((periodKeys input.now).get period)
      have hfits := holdFor_fits hhold hreserved period hcap
      have hkey : (newReservation input (input.uncapped (budget input.orgId)) reserved now).periodKey period =
          (periodKeys input.now).get period := by
        cases period <;> rfl
      rw [hkey]
      simp only [newReservation, id_eq] at hfits ⊢
      omega

lemma commits_reserve (input : ReserveInput) (hfresh : db.reservations.lookup n = none) :
    Commits (rules budget fingerprint strict) (.reserve input) n (Call.program budget fingerprint (.reserve input) n) [] id db
      fun _ _ _ _ => True := by
  simp only [Call.program, reserveAiBudget]
  cases validateIdentity input with
  | error e => trivial
  | ok _ =>
    refine commits_transaction (Commits.see_bind fun db₁ h₁ => ?_)
    refine (commits_lockOrganizationRow _).bind fun r locks₂ own₂ db₂ h => ?_
    obtain ⟨rfl, h₂, hlocks₂⟩ := h
    cases r with
    | error e => exact Committing.error
    | ok _ =>
      obtain rfl := hlocks₂ _ rfl
      refine (commits_selectForUpdate _).bind fun found locks₃ own₃ db₃ h => ?_
      obtain ⟨rfl, h₃, hsub₃, -⟩ := h
      cases found with
      | none =>
        exact commits_admitNew (hsub₃ List.mem_cons_self) (h₂.clock.trans h₃.clock) (h₃.own (h₂.own (h₁.own hfresh)))
      | some found =>
        obtain ⟨id', row⟩ := found
        dsimp only
        split_ifs
        · exact Committing.error
        · exact Committing.same

end Reserve

lemma commits_program (call : Call) (hfresh : db.reservations.lookup n = none) :
    Commits (rules budget fingerprint strict) call n (call.program budget fingerprint n) [] id db fun _ _ _ _ => True := by
  cases call with
  | reserve input => exact commits_reserve input hfresh
  | settle input => exact commits_settle input
  | mark org id' => exact commits_mark org id'
  | release org id' => exact commits_release org id'
  | expire limit => exact commits_expire limit

section Runs

variable {I : Database → Prop}

abbrev State := Config Database Row Call
abbrev Moves := List (Move Call Event)

def Meets (condition : Database → Call → Bool) (c : State) : Move Call Event → Bool
  | .advance n => (c.threads[n]?).all fun t =>
    match t.program with
    | .commit _ => condition c.state t.name
    | _ => true
  | _ => true

lemma nature_rely (e : Event) (locks : List Row) (db : Database) : Rely n locks db (nature e db) := by
  have hsame : (nature e db).reservations = db.reservations ∧ (nature e db).sessions = db.sessions := by cases e <;> exact ⟨rfl, rfl⟩
  refine ⟨?_, fun h => hsame.1 ▸ h, fun _ row h => ⟨row, hsame.1 ▸ h⟩, fun k _ => ?_⟩
  · cases e <;> simp [nature]
  · cases k with
    | organization org => exact ⟨fun _ _ => by cases e <;> rfl, fun id' row' h _ => ⟨row', hsame.1 ▸ h, Or.inl rfl⟩⟩
    | reservation id' => exact fun _ h => hsame.1 ▸ h
    | session id' => exact congrArg (·.lookup id') hsame.2
    | usage key => trivial

lemma kept_run {condition : Database → Call → Bool}
    (hready : ∀ db i, condition db i = true → (rules budget fingerprint strict).ready i db)
    (hI : ∀ n locks db db', Change budget fingerprint strict n locks db db' → I db → I db')
    (hnature : ∀ e db, I db → I (nature e db)) {c : State} {moves : Moves}
    (hc : Kept (rules budget fingerprint strict) (fun _ _ => True) I Fresh c)
    (h : Config.MeetsAll (system budget fingerprint) (fun c m => Meets condition c m = true) c moves) :
    Kept (rules budget fingerprint strict) (fun _ _ => True) I Fresh (Config.run (system budget fingerprint) c moves) := by
  refine Config.MeetsAll.invariant (fun c m hc hmeets => ?_) hc h
  refine hc.step (sound hI) m (fun i _ => ⟨commits_program i (hc.fresh _ (le_refl _)), fun _ _ _ _ => ⟨trivial, trivial⟩⟩)
    (fun e _ => ⟨hnature e _ hc.state, fun j k locks => nature_rely e locks _, fun k hk => ?_⟩) fun n t next hm hn hp => ?_
  · cases e <;> exact hk
  · subst hm
    refine hready _ _ ?_
    rw [Meets, hn, Option.all_some, hp] at hmeets
    exact hmeets

lemma kept_start {db : Database} (hI : I db) (hempty : db.reservations = ∅) :
    Kept (rules budget fingerprint strict) (fun _ _ => True) I Fresh { state := db } where
  state := hI
  commits _ _ h := by cases h
  exclusive _ _ _ _ _ h := by cases h
  apart _ _ _ _ _ h := by cases h
  fresh n _ := by
    rw [Fresh, hempty]
    rfl

end Runs

end Breeze.AiBudget
