import Breeze.Rollback.Protocol

/-! What the engine's records say is what has happened. -/

namespace Breeze.Rollback.Outcomes

open Breeze.Lib Breeze.Lib.Decimal Breeze.Lib.Effects
open Engine Protocol

section History

def before (x : Event × Option StateFile) : StateFile := x.2.getD emptyState

lemma split_snoc {α : Type} {l as bs : List α} {a b : α} (h : l ++ [b] = as ++ a :: bs) :
    (bs = [] ∧ as = l ∧ a = b) ∨ ∃ bs', bs = bs' ++ [b] ∧ l = as ++ a :: bs' := by
  induction bs using List.reverseRecOn with
  | nil =>
    obtain ⟨hl, hb⟩ := List.append_inj' h rfl
    cases hb
    exact Or.inl ⟨rfl, hl.symm, rfl⟩
  | append_singleton bs c _ =>
    rw [← List.cons_append, ← List.append_assoc] at h
    obtain ⟨hl, hb⟩ := List.append_inj' h rfl
    cases hb
    exact Or.inr ⟨bs, rfl, hl⟩

lemma allowed_at {w : World} (h : Reachable w) {as bs : List (Event × Option StateFile)} {x : Event × Option StateFile}
    (hlog : w.log = as ++ x :: bs) : ∃ w', Reachable w' ∧ w'.log = as ∧ w'.disk = x.2 ∧ Allowed w' x.1 := by
  induction h generalizing bs with
  | init =>
    have hlength := congrArg List.length hlog
    simp at hlength
  | @step w e hw he ih =>
    rcases split_snoc hlog with ⟨-, rfl, rfl⟩ | ⟨bs', -, hlog'⟩
    · exact ⟨w, hw, rfl, rfl, he⟩
    · exact ih hlog'

lemma last_eq {w : World} {e : Event} (h : last w = some e) : ∃ as disk, w.log = as ++ [(e, disk)] := by
  obtain ⟨x, hx, rfl⟩ := Option.map_eq_some_iff.mp h
  obtain ⟨as, has⟩ := List.getLast?_eq_some_iff.mp hx
  exact ⟨as, x.2, has⟩

end History

section Tombstones

variable {w : World} {e : Event} {i : Text}

lemma tombstone_step (hw : Reachable w) (he : Allowed w e) {record : Record} (h : (file w).tombstones i = some record) :
    (file (w.record e)).tombstones i = some record ∨
      record.phase = .recovered ∧ (∃ err, last w = some (.restart record.directive (.error err))) ∧
        ∃ env now, (file (w.record e)).tombstones i = some (record.moved env .failed now "recovery_restart_failed") ∧
          ∃ outcome, e = .save ((file w).put (record.moved env .failed now "recovery_restart_failed")) outcome := by
  have hinv := hw.invariant
  rcases file_cases he with hfile | ⟨state, outcome, rfl, hchange, hfile⟩
  · rw [hfile]
    exact Or.inl h
  · rw [hfile]
    cases hchange with
    | acknowledge => exact Or.inl h
    | @move moving phase failure hmove _ env now =>
      cases hphase : phase.isTerminal with
      | false =>
        rw [(put_running (moving.moved env phase now failure) hphase (file w)).2]
        exact Or.inl h
      | true =>
        rw [(put_terminal (moving.moved env phase now failure) hphase (file w)).2, Function.update_apply]
        split_ifs with hi
        · rcases hmove.source with hactive | ⟨-, rfl | ⟨-, htomb⟩⟩
          · rw [hi, moved_id, (hinv.active hactive).2] at h
            cases h
          · cases hphase
          · rw [hi, moved_id, htomb] at h
            cases h
            cases hmove with
            | failAgain _ hrecovered _ hlast => exact Or.inr ⟨hrecovered, ⟨_, hlast⟩, env, now, rfl, outcome, rfl⟩
            | fail hactive | recover hactive | settle hactive =>
              rw [(hinv.active hactive).2] at htomb
              cases htomb
            | _ => cases hphase
        · exact Or.inl h

lemma tombstones_stay (hw : Reachable w) (he : Allowed w e)
    (h : (file w).tombstones i ≠ none) : (file (w.record e)).tombstones i ≠ none := by
  obtain ⟨record, hrecord⟩ := Option.ne_none_iff_exists'.mp h
  rcases tombstone_step hw he hrecord with hkept | ⟨-, -, env, now, hfailed, -⟩
  · rw [hkept]
    exact Option.some_ne_none _
  · rw [hfailed]
    exact Option.some_ne_none _

lemma tombstones_of_past (h : Reachable w) {x : Event × Option StateFile} (hx : x ∈ w.log)
    (htomb : (before x).tombstones i ≠ none) : (file w).tombstones i ≠ none := by
  induction h with
  | init => cases hx
  | @step w e hw he ih =>
    refine tombstones_stay hw he ?_
    rcases List.mem_append.mp hx with hx | hx
    · exact ih hx
    · cases List.mem_singleton.mp hx
      exact htomb

end Tombstones

section Truth

def RecoveredLast (w : World) (i : Text) : Prop :=
  ∃ as d disk bs, w.log = as ++ (.recover d (.ok ()), disk) :: bs ∧ d.rollbackId = i ∧ ∀ x ∈ bs, isSwap i x.1 = false

def FoundHealthy (w : World) (i : Text) : Prop :=
  ∃ d disk disk', d.rollbackId = i ∧ (.healthy d (.ok true), disk) ∈ w.log ∧ (.finalize d (.ok ()), disk') ∈ w.log

structure Backed (w : World) (i : Text) (record : Record) : Prop where
  interrupted : record.phase = .failed → record.observation.errorCode = "interrupted_before_swap" → Unswapped w i
  recovered : record.phase = .recovered → RecoveredLast w i
  healthy : record.phase = .healthy → FoundHealthy w i

variable {w : World} {e : Event}

lemma isSwap_of_tombstone (hw : Reachable w) (he : Allowed w e) {i : Text} (h : (file w).tombstones i ≠ none) :
    isSwap i e = false := by
  cases he with
  | @swap record hactive _ _ r =>
    refine decide_eq_false fun hi => h ?_
    rw [← hi]
    exact (hw.invariant.active hactive).2
  | _ => rfl

variable {record : Record}

lemma Backed.later (hw : Reachable w) (he : Allowed w e) {i : Text}
    (h : Backed w i record) (htomb : (file w).tombstones i ≠ none) : Backed (w.record e) i record where
  interrupted hphase hcode := unswapped_record.mpr ⟨h.interrupted hphase hcode, isSwap_of_tombstone hw he htomb⟩
  recovered hphase := by
    obtain ⟨as, d, disk, bs, hlog, hi, hbs⟩ := h.recovered hphase
    refine ⟨as, d, disk, bs ++ [(e, w.disk)], ?_, hi, ?_⟩
    · rw [World.record, hlog, List.append_assoc]
      rfl
    · exact List.forall_mem_append.mpr ⟨hbs, List.forall_mem_singleton.mpr (isSwap_of_tombstone hw he htomb)⟩
  healthy hphase := by
    obtain ⟨d, disk, disk', hi, hhealthy, hfinal⟩ := h.healthy hphase
    exact ⟨d, disk, disk', hi, List.mem_append_left _ hhealthy, List.mem_append_left _ hfinal⟩

lemma foundHealthy_of_last (hw : Reachable w) {d : Directive} (h : last w = some (.finalize d (.ok ()))) :
    FoundHealthy w d.rollbackId := by
  obtain ⟨as, disk, hlog⟩ := last_eq h
  obtain ⟨w', -, hlog', -, hallowed⟩ := allowed_at hw hlog
  cases hallowed with
  | finalize hactive hlast =>
    obtain ⟨as', disk', hlog''⟩ := last_eq hlast
    rw [hlog''] at hlog'
    refine ⟨_, disk', disk, rfl, ?_, ?_⟩
    · rw [hlog, ← hlog']
      simp
    · rw [hlog]
      simp

lemma backed_move (hw : Reachable w) {phase : Phase} {failure : String}
    (hmove : Moves w record phase failure) (env : Environment) (now : ℤ) (he : ∀ i, isSwap i e = false) :
    Backed (w.record e) record.id (record.moved env phase now failure) where
  interrupted hphase hcode := by
    change failure = "interrupted_before_swap" at hcode
    refine unswapped_record.mpr ⟨?_, he _⟩
    cases hmove with
    | fail hactive hlate => exact hw.invariant.unswapped hactive (hlate hcode)
    | failAgain => exact absurd hcode (by decide)
    | _ => cases hphase
  recovered hphase := by
    cases hmove with
    | recover hactive hlast =>
      obtain ⟨as, disk, hlog⟩ := last_eq hlast
      refine ⟨as, _, disk, [(e, w.disk)], ?_, rfl, List.forall_mem_singleton.mpr (he _)⟩
      rw [World.record, hlog, List.append_assoc]
      rfl
    | _ => cases hphase
  healthy hphase := by
    cases hmove with
    | settle hactive hlast =>
      obtain ⟨d, disk, disk', hi, hhealthy, hfinal⟩ := foundHealthy_of_last hw hlast
      exact ⟨d, disk, disk', hi, List.mem_append_left _ hhealthy, List.mem_append_left _ hfinal⟩
    | _ => cases hphase

theorem backed (h : Reachable w) {i : Text} (htomb : (file w).tombstones i = some record) :
    Backed w i record := by
  induction h generalizing record with
  | init => cases htomb
  | @step w e hw he ih =>
    rcases file_cases he with hfile | ⟨state, outcome, rfl, hchange, hfile⟩
    · rw [hfile] at htomb
      exact (ih htomb).later hw he (htomb ▸ Option.some_ne_none _)
    · rw [hfile] at htomb
      cases hchange with
      | acknowledge => exact (ih htomb).later hw he (htomb ▸ Option.some_ne_none _)
      | @move moving phase failure hmove _ env now =>
        cases hphase : phase.isTerminal with
        | false =>
          rw [(put_running (moving.moved env phase now failure) hphase (file w)).2] at htomb
          exact (ih htomb).later hw he (htomb ▸ Option.some_ne_none _)
        | true =>
          rw [(put_terminal (moving.moved env phase now failure) hphase (file w)).2, Function.update_apply] at htomb
          split_ifs at htomb with hi
          · cases htomb
            rw [hi]
            exact backed_move hw hmove env now fun _ => rfl
          · exact (ih htomb).later hw he (htomb ▸ Option.some_ne_none _)

lemma active_of_past (h : Reachable w) {x : Event × Option StateFile} (hx : x ∈ w.log)
    (hrecord : (before x).active = some record) :
    (file w).tombstones record.id ≠ none ∨ ∃ current, (file w).active = some current ∧ current.id = record.id := by
  induction h with
  | init => cases hx
  | @step w e hw he ih =>
    have hnow : (file w).tombstones record.id ≠ none ∨ ∃ current, (file w).active = some current ∧ current.id = record.id := by
      rcases List.mem_append.mp hx with hx | hx
      · exact ih hx
      · cases List.mem_singleton.mp hx
        exact Or.inr ⟨record, hrecord, rfl⟩
    rcases hnow with htomb | ⟨current, hcurrent, hid⟩
    · exact Or.inl (tombstones_stay hw he htomb)
    · rcases file_cases he with hfile | ⟨state, outcome, rfl, hchange, hfile⟩
      · rw [hfile]
        exact Or.inr ⟨current, hcurrent, hid⟩
      · rw [hfile]
        cases hchange with
        | acknowledge => exact Or.inr ⟨current, hcurrent, hid⟩
        | @move moving phase failure hmove _ env now =>
          rcases hmove.source with hsource | ⟨hnone, -⟩
          · rw [hcurrent] at hsource
            cases hsource
            cases hphase : phase.isTerminal with
            | false =>
              rw [(put_running (current.moved env phase now failure) hphase (file w)).1]
              exact Or.inr ⟨_, rfl, hid⟩
            | true =>
              rw [(put_terminal (current.moved env phase now failure) hphase (file w)).2, moved_id, hid, Function.update_self]
              exact Or.inl (Option.some_ne_none _)
          · rw [hcurrent] at hnone
            cases hnone

structure Truthful (w : World) : Prop where
  swap : ∀ {as d r disk bs}, w.log = as ++ (.swap d r, disk) :: bs →
    (∃ record, (before (.swap d r, disk)).active = some record ∧ record.id = d.rollbackId ∧ record.phase = .staged) ∧
      (∀ x ∈ as ++ [(.swap d r, disk)], (before x).tombstones d.rollbackId = none) ∧ ∀ x ∈ as, isSwap d.rollbackId x.1 = false
  interrupted : ∀ {i record}, (file w).tombstones i = some record → record.phase = .failed →
    record.observation.errorCode = "interrupted_before_swap" → Unswapped w i
  recovered : ∀ {i record}, (file w).tombstones i = some record → record.phase = .recovered → RecoveredLast w i
  healthy : ∀ {i record}, (file w).tombstones i = some record → record.phase = .healthy → FoundHealthy w i
  active : ∀ {x record}, x ∈ w.log → (before x).active = some record →
    (file w).tombstones record.id ≠ none ∨ ∃ current, (file w).active = some current ∧ current.id = record.id

theorem rollbacks_truthful (steps : List Step) : Truthful (run steps) := by
  have hw := reachable_run steps
  refine ⟨fun {as d r disk bs} hlog => ?_, fun h => (backed hw h).interrupted, fun h => (backed hw h).recovered,
    fun h => (backed hw h).healthy, fun hx => active_of_past hw hx⟩
  obtain ⟨w', hw', rfl, rfl, hallowed⟩ := allowed_at hw hlog
  cases hallowed with
  | @swap record hactive hphase hswap _ =>
    have htomb := (hw'.invariant.active hactive).2
    refine ⟨⟨record, hactive, rfl, hphase⟩, List.forall_mem_append.mpr ⟨fun x hx => ?_, ?_⟩, hswap⟩
    · by_contra hne
      exact tombstones_of_past hw' hx hne htomb
    · exact List.forall_mem_singleton.mpr htomb

end Truth

end Breeze.Rollback.Outcomes
