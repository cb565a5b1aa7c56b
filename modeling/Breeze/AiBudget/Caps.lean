import Breeze.AiBudget.Conduct

/-! The caps of an organization: what was settled in a period and what is held of it. -/

namespace Breeze.AiBudget

open Lib Lib.Transactions

variable {budget : OrgId → EffectiveAiBudget} {fingerprint : Settlement → String} {db db' : Database} {n : ℕ} {locks : List Row}

def Covered (budget : OrgId → EffectiveAiBudget) (db : Database) : Prop :=
  ∀ (key : UsageKey) (cap : ℕ), (budget key.1).get key.2.1 = some cap →
    used db key + held db db.clock key ≤ (cap * moneyScale : ℕ)

section Shares

variable {now : ℤ} {key : UsageKey} {row : ReservationRow}

variable (now key row) in
lemma share_le : row.share now key ≤ row.reservedCostCents := by
  rw [ReservationRow.share]
  split_ifs
  · exact le_refl _
  · exact Nat.zero_le _

lemma share_of_not_holds (h : row.holds now = false) : row.share now key = 0 := by
  rw [ReservationRow.share, if_neg]
  rw [h]
  simp

lemma share_of_holds (horg : row.orgId = key.1) (hkey : row.periodKey key.2.1 = key.2.2) (h : row.holds now = true) :
    row.share now key = row.reservedCostCents := if_pos ⟨horg, hkey, h⟩

lemma share_of_other (h : ¬ (row.orgId = key.1 ∧ row.periodKey key.2.1 = key.2.2)) : row.share now key = 0 :=
  if_neg fun hc => h ⟨hc.1, hc.2.1⟩

end Shares

variable {id' : ReservationId} {row : ReservationRow}

lemma held_setReservation (set : ReservationRow → ReservationRow) (now : ℤ)
    (key : UsageKey) (hrow : db.reservations.lookup id' = some row) :
    held (db.setReservation id' set) now key + row.share now key = held db now key + (set row).share now key :=
  Table.sumOf_modify _ hrow

lemma held_settle (fingerprint : Settlement → String) (s : Settlement) (now : ℤ)
    (key : UsageKey) (hrow : db.reservations.lookup id' = some row) :
    held (db.settle fingerprint row.orgId id' row s) now key + row.share now key = held db now key := by
  have hmodify : held (db.settle fingerprint row.orgId id' row s) now key =
      held (db.setReservation id' (·.settle fingerprint s)) now key := by
    rw [held, settle_reservations]
    rfl
  have hsettled : (row.settle fingerprint s).share now key = 0 := share_of_not_holds rfl
  rw [hmodify, held_setReservation _ now key hrow, hsettled, add_zero]

lemma covered_settle {s : Settlement} (h : Covered budget db)
    (hrow : db.reservations.lookup id' = some row) (hholds : row.holds db.clock = true)
    (hcost : s.actualCostCents ≤ row.reservedCostCents) : Covered budget (db.settle fingerprint row.orgId id' row s) := by
  intro key cap hcap
  have hold := h key cap hcap
  have hheld := held_settle fingerprint s db.clock key hrow
  rw [used_settle, settle_clock]
  by_cases hkey : key.1 = row.orgId ∧ key.2.2 = row.periodKey key.2.1
  · rw [share_of_holds hkey.1.symm hkey.2.symm hholds] at hheld
    rw [if_pos hkey]
    omega
  · rw [if_neg hkey]
    omega

lemma covered_mark (now : ℤ) (h : Covered budget db)
    (hrow : db.reservations.lookup id' = some row) (hactive : row.status = .active) (hlive : db.clock < row.expiresAt) :
    Covered budget (db.setReservation id' (·.mark now)) := by
  intro key cap hcap
  have hold := h key cap hcap
  have hheld := held_setReservation (·.mark now) db.clock key hrow
  have hshare : (row.mark now).share db.clock key ≤ row.share db.clock key := by
    by_cases hkey : row.orgId = key.1 ∧ row.periodKey key.2.1 = key.2.2
    · have hholds : row.holds db.clock = true := by simp [ReservationRow.holds, hactive, hlive]
      rw [share_of_holds hkey.1 hkey.2 hholds]
      exact share_le _ _ _
    · have hnone : (row.mark now).share db.clock key = 0 := share_of_other fun hc => hkey hc
      rw [hnone]
      exact Nat.zero_le _
  change used db key + held (db.setReservation id' (·.mark now)) db.clock key ≤ _
  omega

lemma covered_of_le (h : Covered budget db) (hused : ∀ key, used db' key = used db key)
    (hheld : ∀ key, held db' db'.clock key ≤ held db db.clock key) : Covered budget db' := by
  intro key cap hcap
  have hold := h key cap hcap
  have hle := hheld key
  rw [hused]
  omega

lemma Change.covered (hchange : Change budget fingerprint True n locks db db') (h : Covered budget db) : Covered budget db' := by
  cases hchange with
  | same => exact h
  | reserve row horg hnew hactive hfits =>
    intro key cap hcap
    have hold := h key cap hcap
    have hheld : held (db.addReservation n row) db.clock key = row.share db.clock key + held db db.clock key :=
      Table.sumOf_insert _ hnew
    change used db key + held (db.addReservation n row) db.clock key ≤ _
    by_cases hkey : row.orgId = key.1 ∧ row.periodKey key.2.1 = key.2.2
    · obtain ⟨org, period, k⟩ := key
      dsimp only at hkey
      obtain ⟨rfl, rfl⟩ := hkey
      have hfits := hfits period cap hcap
      have hshare := share_le db.clock (row.orgId, period, row.periodKey period) row
      omega
    · rw [share_of_other fun hc => hkey hc] at hheld
      omega
  | settle id' row s horg hid hrow hstatus hsession hlocked hlive =>
    exact covered_settle h hrow (hlive trivial).1 (hlive trivial).2
  | mark id' row now horg hid hrow hactive hlive => exact covered_mark now h hrow hactive (hlive trivial)
  | release id' row horg hid hrow hactive =>
    refine covered_of_le h (fun _ => rfl) fun key => ?_
    have hheld := held_setReservation ReservationRow.release db.clock key hrow
    have hshare : row.release.share db.clock key = 0 := share_of_not_holds rfl
    change held (db.setReservation id' ReservationRow.release) db.clock key ≤ _
    omega
  | expire ids hids hlocked hstale =>
    refine covered_of_le h (fun key => by rw [expireAll_eq]; rfl) fun key => Table.sumOf_le fun id' row' hrow' hshare => ?_
    rw [lookup_expireAll db hids] at hrow'
    split_ifs at hrow' with hid
    · obtain ⟨row, -, rfl⟩ := Option.map_eq_some_iff.mp hrow'
      exact absurd (share_of_not_holds rfl) hshare
    · refine ⟨row', hrow', le_of_eq ?_⟩
      rw [expireAll_eq]

lemma covered_nature (e : Event) (h : Covered budget db) : Covered budget (nature e db) := by
  cases e with
  | tick ms =>
    refine covered_of_le h (fun _ => rfl) fun key => Table.sumOf_le fun id' row' hrow' hshare => ⟨row', hrow', ?_⟩
    have hcounts : row'.orgId = key.1 ∧ row'.periodKey key.2.1 = key.2.2 ∧ row'.holds (db.clock + ms) = true := by
      by_contra hno
      exact hshare (if_neg hno)
    have hholds : row'.holds db.clock = true := by
      have hlater := hcounts.2.2
      simp only [ReservationRow.holds, decide_eq_true_eq] at hlater ⊢
      exact ⟨hlater.1, by omega⟩
    rw [share_of_holds hcounts.1 hcounts.2.1 hholds]
    exact share_le _ _ _
  | clientUsage key total => exact covered_of_le h (fun _ => rfl) fun _ => le_refl _

theorem caps_hold (budget : OrgId → EffectiveAiBudget) (fingerprint : Settlement → String) (db : Database) (moves : Moves)
    (hempty : db.reservations = ∅) (hstart : Covered budget db)
    (hmoves : Config.MeetsAll (system budget fingerprint)
      (fun c m => Meets (fun db i => SettlesHold db i && MarksLive db i) c m = true) { state := db } moves) :
    Covered budget (Config.run (system budget fingerprint) { state := db } moves).state := by
  have hready : ∀ db i, (SettlesHold db i && MarksLive db i) = true → (rules budget fingerprint True).ready i db :=
    fun db i h _ => Bool.and_eq_true_iff.mp h
  exact (kept_run hready (fun _ _ _ _ => Change.covered) (fun e _ => covered_nature e) (kept_start hstart hempty) hmoves).state

def acme : OrgId := "00000000-0000-1000-8000-000000000000"

def oneDollarADay : OrgId → EffectiveAiBudget := fun _ =>
  { dailyBudgetCents := some 100, monthlyBudgetCents := none, enabled := true }

def dispatch (key : String) : Call :=
  .reserve { orgId := acme, idempotencyKey := key, billingSource := .platform, now := ⟨2026, 11, 15⟩ }

def complete (n : ℕ) (call : Call) : Moves := .start call :: List.replicate 16 (.advance n)

def orderly : Moves :=
  complete 0 (dispatch "first") ++ complete 1 (.mark acme 0) ++ [.nature (.tick 1800000)] ++
    complete 2 (.settle { orgId := acme, reservationId := 0, actualCostCents := 40000000, inputTokens := 10, outputTokens := 5 }) ++
    complete 3 (dispatch "second")

theorem caps_hold_orderly :
    held (Config.run (system oneDollarADay fun _ => "digest") { state := { organizations := [acme] } } orderly).state 1800000
        (acme, .daily, "2026-11-15") = 60000000 ∧
      Covered oneDollarADay
        (Config.run (system oneDollarADay fun _ => "digest") { state := { organizations := [acme] } } orderly).state :=
  ⟨by decide +kernel, caps_hold _ _ _ orderly rfl (fun _ _ _ => Int.natCast_nonneg _) (by decide +kernel)⟩

def lateMark : Moves :=
  complete 0 (dispatch "first") ++ [.nature (.tick 1800000)] ++ complete 1 (dispatch "second") ++ complete 2 (.mark acme 0)

theorem late_mark_oversubscribes :
    Config.MeetsAll (system oneDollarADay fun _ => "digest") (fun c m => Meets SettlesHold c m = true)
        { state := { organizations := [acme] } } lateMark ∧
      ¬ Covered oneDollarADay
        (Config.run (system oneDollarADay fun _ => "digest") { state := { organizations := [acme] } } lateMark).state := by
  refine ⟨by decide +kernel, fun h => ?_⟩
  exact absurd (h (acme, .daily, "2026-11-15") 100 rfl) (by decide +kernel)

end Breeze.AiBudget
