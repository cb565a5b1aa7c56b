import Breeze.Peripheral.Apply

/-! What a failed application of an envelope leaves behind: the plan enforced last, and the persisted state. -/

namespace Breeze.Peripheral.LastKnownGood

open Breeze.Lib Breeze.Lib.Stateful
open Breeze.Lib.Decimal (Text)
open Breeze.Lib.Utf8 (Bytes)
open Breeze.Lib.Checksum (Sum)
open Agent Apply

section Plans

variable {clock : Clock}

variable {policies : List Policy} {plan : EnforcementPlan}

lemma planEnforcement_eq_iff {results : List EvaluationResult} :
    planEnforcement results policies = planEnforcement [] policies ↔ results.any isDisabled = false := by
  simp [planEnforcement]

lemma verdict_nil (dev : DetectedPeripheral) (decides : Policy → Bool) :
    isDisabled (verdict clock dev decides []) = false := by
  simp [verdict, isDisabled]

lemma effective_nil (devices : List DetectedPeripheral) : (evaluateEffectiveV2 clock devices []).any isDisabled = false := by
  simp [evaluateEffectiveV2, verdict_nil]

def isEnforcing (p : Policy) : Bool :=
  p.isActive && isEnforceable p.deviceClass && (p.action == "block".toList || p.action == "read_only".toList)

lemma planPolicy_idle {p : Policy} (h : isEnforcing p = false) (plan : EnforcementPlan) : planPolicy plan p = plan := by
  unfold planPolicy
  split_ifs <;> simp_all [isEnforcing]

lemma foldl_idle (h : ∀ p ∈ policies, isEnforcing p = false) (plan : EnforcementPlan) :
    policies.foldl planPolicy plan = plan := by
  induction policies with
  | nil => rfl
  | cons p policies ih =>
    rw [List.foldl_cons, planPolicy_idle (h p List.mem_cons_self)]
    exact ih fun q hq => h q (List.mem_cons_of_mem _ hq)

def IsIdle (plan : EnforcementPlan) : Prop := plan.blockGates = [] ∧ plan.readOnlyClasses = []

lemma idle_of_planPolicy {p : Policy} (h : IsIdle (planPolicy plan p)) : IsIdle plan ∧ isEnforcing p = false := by
  unfold planPolicy at h
  split_ifs at h <;> simp_all [IsIdle, isEnforcing]
  grind

lemma idle_of_foldl (h : IsIdle (policies.foldl planPolicy plan)) : IsIdle plan ∧ ∀ p ∈ policies, isEnforcing p = false := by
  induction policies generalizing plan with
  | nil => exact ⟨h, nofun⟩
  | cons p policies ih =>
    obtain ⟨hplan, hrest⟩ := ih h
    obtain ⟨hfirst, hp⟩ := idle_of_planPolicy hplan
    exact ⟨hfirst, List.forall_mem_cons.mpr ⟨hp, hrest⟩⟩

lemma enforceable_of_matches {policyClass deviceClass : Text} (h : classMatches policyClass deviceClass = true)
    (hd : isEnforceable deviceClass = true) : isEnforceable policyClass = true := by
  rw [classMatches, Bool.or_eq_true, Bool.and_eq_true, beq_iff_eq, beq_iff_eq] at h
  rcases h with rfl | ⟨rfl, -⟩
  · exact hd
  · rfl

lemma evaluateOne_idle (h : ∀ p ∈ policies, isEnforcing p = false) (dev : DetectedPeripheral) :
    isDisabled (evaluateOne clock dev policies) = false := by
  by_contra hdisabled
  rw [Bool.not_eq_false, evaluateOne, verdict] at hdisabled
  split at hdisabled
  · simp [isDisabled] at hdisabled
  · rename_i policy hfind
    split_ifs at hdisabled
    · simp [isDisabled] at hdisabled
    · have hidle := h policy (List.mem_of_find?_eq_some hfind)
      have hdecides := List.find?_some hfind
      simp only [Bool.and_eq_true] at hdecides
      simp only [isDisabled, Bool.and_eq_true] at hdisabled
      have henforceable := enforceable_of_matches hdecides.2 hdisabled.1.2
      simp only [isEnforcing, hdecides.1, henforceable, hdisabled.1.1, Bool.true_and, Bool.true_or] at hidle
      cases hidle

lemma legacy_plan_eq_iff {devices : List DetectedPeripheral} :
    planEnforcement (evaluate clock devices policies) policies = planEnforcement [] [] ↔
      policies.all (fun p => !isEnforcing p) = true := by
  rw [List.all_eq_true]
  simp only [Bool.not_eq_true']
  constructor
  · intro h
    have hidle : IsIdle (policies.foldl planPolicy ⟨[], [], []⟩) :=
      ⟨congrArg EnforcementPlan.blockGates h, congrArg EnforcementPlan.readOnlyClasses h⟩
    exact (idle_of_foldl hidle).2
  · intro h
    have hnone : (evaluate clock devices policies).any isDisabled = false := by
      simp [evaluate, evaluateOne_idle h]
    rw [planEnforcement_eq_iff.mpr hnone, planEnforcement, foldl_idle h]
    rfl

end Plans

section Install

variable {d : File StateV2} {l : List (EnforcementPlan × EnforcementOutcome)} {e : Enforcer}

def At (d : File StateV2) (l : List (EnforcementPlan × EnforcementOutcome)) (w : World) : Prop := w.v2 = d ∧ w.enforced = l

lemma invoke_at (c : Call) : Triple (At d l) (invoke e c) fun _ => At d l := fun _ h => h

section

variable (plan : EnforcementPlan)

lemma revertClass_at (out : EnforcementOutcome) (c : Text) :
    Triple (At d l) (revertClass e plan out c) fun _ => At d l := by
  rw [revertClass]
  refine Triple.bind (Q := fun _ => At d l) ?_ fun out => ?_
  · split
    · exact Triple.bind (invoke_at _) fun _ => Triple.keep
    · exact Triple.keep
  · split_ifs
    · exact Triple.keep
    · exact Triple.bind (invoke_at _) fun _ => Triple.keep

lemma applyClass_at (out : EnforcementOutcome) (c : Text) :
    Triple (At d l) (applyClass e plan out c) fun _ => At d l := by
  rw [applyClass]
  refine Triple.bind (Q := fun _ => At d l) ?_ fun out => ?_
  · split
    · exact Triple.keep
    · exact Triple.bind (invoke_at _) fun _ => Triple.keep
  · split_ifs
    · exact Triple.bind (invoke_at _) fun _ => Triple.keep
    · exact Triple.keep

lemma converge_at (classes : List Text) :
    Triple (At d l) (converge e plan classes) fun _ => At d l := by
  refine Triple.bind (Triple.foldlM (revertClass_at plan) _ _) fun out => ?_
  refine Triple.bind (Triple.foldlM (applyClass_at plan) _ _) fun out => ?_
  exact Triple.foldlM (fun out id => Triple.bind (invoke_at _) fun _ => Triple.keep) _ _

lemma enforce_at (classes : List Text) :
    Triple (At d l) (enforce e plan classes) fun out => At d (l ++ [(plan, out)]) := by
  refine Triple.bind (converge_at plan classes) fun out => ?_
  refine Triple.bind (Q := fun _ => At d (l ++ [(plan, out)])) (Triple.modify fun w hw => ?_) fun _ => Triple.keep
  exact ⟨hw.1, by rw [hw.2]⟩

end

lemma save_at (policies : List Policy) (answer : WriteAnswer (List Policy)) :
    Triple (At d l) (save policies answer) fun _ => At d l := fun _ h => h

lemma load_at (fails : Bool) : Triple (At d l) (load fails) fun _ => At d l := fun _ h => h

lemma loadV2State_at (fails : Bool) :
    Triple (At d l) (loadV2State fails) fun r w => r = readFile fails d ∧ At d l w := by
  rintro w ⟨rfl, rfl⟩
  exact ⟨rfl, rfl, rfl⟩

lemma holds_of_readFile {α : Type} {fails : Bool} {f : File α} {x : α} (h : readFile fails f = some (some x)) : f = .holds x := by
  cases fails <;> cases f <;> simp_all [readFile]

lemma saveV2State_at (state : StateV2) (answer : WriteAnswer StateV2) (fails : Bool) :
    Triple (At d l) (saveV2State state answer fails) fun ok w =>
      At (answer.effect.leaves d state) l w ∧ (ok = true → answer.fails = false ∧ answer.effect.leaves d state = .holds state) := by
  refine Triple.bind (Q := fun _ => At (answer.effect.leaves d state) l) ?_ fun _ => ?_
  · refine Triple.modify fun w hw => ?_
    obtain ⟨rfl, rfl⟩ := hw
    exact ⟨rfl, rfl⟩
  · split_ifs with hf
    · exact Triple.pure fun w hw => ⟨hw, nofun⟩
    · refine Triple.bind (loadV2State_at fails) fun r => ?_
      split
      · rename_i persisted
        refine Triple.pure fun w hw => ⟨hw.2, fun h => ⟨Bool.eq_false_iff.mpr hf, ?_⟩⟩
        obtain rfl := of_decide_eq_true h
        exact holds_of_readFile hw.1.symm
      · exact Triple.pure fun w hw => ⟨hw.2, nofun⟩

def Installed (d : File StateV2) (envelope : Envelope) (plan recoveryPlan : EnforcementPlan) (a : StoreAnswers) :
    Outcome → World → Prop
  | .applied, w => a.saveV2.fails = false ∧ w.v2 = .holds (nextState envelope) ∧
      ∃ out, w.enforced = [(plan, out)] ∧ countUnverified out = 0
  | .rejected r, w => (r = .enforcementFailed ∨ r = .persistenceFailed) ∧ (a.saveV2.effect = .untouched → w.v2 = d) ∧
      ∃ out out', w.enforced = [(plan, out), (recoveryPlan, out')]

variable {a : StoreAnswers} {envelope : Envelope} {plan recoveryPlan : EnforcementPlan}

variable {out : EnforcementOutcome}

lemma restore_installed {r : Reason} {f : File StateV2} (classes : List Text)
    (hr : r = .enforcementFailed ∨ r = .persistenceFailed) (hf : a.saveV2.effect = .untouched → f = d) :
    Triple (At f [(plan, out)]) (enforce e recoveryPlan classes >>= fun _ => pure (Outcome.rejected r))
      (Installed d envelope plan recoveryPlan a) := by
  refine Triple.bind (enforce_at recoveryPlan classes) fun out' => Triple.pure fun w hw => ?_
  obtain ⟨rfl, hl⟩ := hw
  exact ⟨hr, hf, out, out', hl⟩

lemma persist_installed (classes : List Text) (legacy : List Policy) (hout : countUnverified out = 0) :
    Triple (At d [(plan, out)]) (persist envelope legacy (enforce e recoveryPlan classes) a)
      (Installed d envelope plan recoveryPlan a) := by
  have huntouched : a.saveV2.effect = .untouched → a.saveV2.effect.leaves d (nextState envelope) = d := by
    intro h
    rw [h]
    rfl
  refine Triple.bind (saveV2State_at _ _ _) fun ok => ?_
  split_ifs with hok hphase
  · refine Triple.pure fun w hw => ?_
    obtain ⟨⟨hv2, hl⟩, hsaved⟩ := hw
    obtain ⟨hfails, hleft⟩ := hsaved hok
    exact ⟨hfails, hv2.trans hleft, out, hl, hout⟩
  · refine Triple.bind (Q := fun _ => At (a.saveV2.effect.leaves d (nextState envelope)) [(plan, out)]) (fun w hw => hw.1) fun _ => ?_
    exact restore_installed classes (.inr rfl) huntouched
  · exact fun w hw => restore_installed classes (.inr rfl) huntouched w hw.1

-- the state file is written last: every earlier failure leaves it as it was
lemma install_installed (classes : List Text) (legacy : List Policy) :
    Triple (At d []) (install e classes envelope legacy plan recoveryPlan a) (Installed d envelope plan recoveryPlan a) := by
  refine Triple.bind (enforce_at plan classes) fun out => ?_
  split_ifs with hout hphase
  · exact restore_installed classes (.inl rfl) fun _ => rfl
  · refine Triple.bind (save_at _ _) fun ok => ?_
    split_ifs
    · exact restore_installed classes (.inr rfl) fun _ => rfl
    · refine Triple.bind (load_at _) fun legacy' => ?_
      split_ifs
      · exact Triple.bind (save_at _ _) fun _ => restore_installed classes (.inr rfl) fun _ => rfl
      · exact persist_installed classes legacy (not_not.mp hout)
  · exact persist_installed classes legacy (not_not.mp hout)

end Install

section Restore

variable {sha256 : Bytes → Sum} {clock : Clock} {envelope : Envelope} {localIdentity : Identity} {d : Disk}
  {detect : Option (List DetectedPeripheral)}

def legacyPolicies (d : Disk) : List Policy :=
  match d.legacy with
  | .holds policies => policies
  | _ => []

def planFor (clock : Clock) (phase : Text) (effectivePolicies : Option (List PolicyV2)) (devices : List DetectedPeripheral) :
    EnforcementPlan :=
  let policies := effectivePoliciesAsLegacy effectivePolicies
  planEnforcement (if phase = enforcePhase then evaluateEffectiveV2 clock devices policies else []) policies

def previousPlan (clock : Clock) (d : Disk) (devices : List DetectedPeripheral) : EnforcementPlan :=
  match d.v2 with
  | .holds s => planFor clock s.phase s.effectivePolicies devices
  | _ => planEnforcement (evaluate clock devices (legacyPolicies d)) (legacyPolicies d)

def run (sha256 : Bytes → Sum) (clock : Clock) (envelope : Envelope) (localIdentity : Identity) (d : Disk)
    (deps : PolicyV2Dependencies) (a : StoreAnswers) : Result × World :=
  (applyPeripheralPolicyV2 sha256 clock envelope localIdentity deps a).run ⟨d, [], []⟩

/-- A failure after a plan was enforced ends with the previous plan, and leaves the state file unless its write replaced it; an
applied envelope is the persisted state, and its plan the last one, with every outcome verified. -/
structure Restored (clock : Clock) (envelope : Envelope) (d : Disk) (devices : List DetectedPeripheral) (a : StoreAnswers)
    (r : Result × World) : Prop where
  failed : r.1.outcome = .rejected .enforcementFailed ∨ r.1.outcome = .rejected .persistenceFailed → r.2.enforced ≠ [] →
    r.2.enforced.getLast?.map Prod.fst = some (previousPlan clock d devices) ∧ (a.saveV2.effect = .untouched → r.2.v2 = d.v2)
  applied : r.1.outcome = .applied → r.2.v2 = .holds (nextState envelope) ∧
    ∃ out, r.2.enforced.getLast? = some (planFor clock envelope.phase envelope.effectivePolicies devices, out) ∧
      countUnverified out = 0

def isRestorable (sha256 : Bytes → Sum) (clock : Clock) (envelope : Envelope) (localIdentity : Identity) (d : Disk)
    (detect : Option (List DetectedPeripheral)) : Bool :=
  envelope.phase == Apply.clearLegacy ||
    match d.v2, detect with
    | .missing, some _ => (legacyPolicies d).all fun p => !isEnforcing p
    | .holds s, some devices => decide (validateEnvelopeV2 sha256 (persistedEnvelope s) localIdentity ≠ none) ||
        !(evaluateEffectiveV2 clock devices (effectivePoliciesAsLegacy s.effectivePolicies)).any isDisabled
    | _, _ => true

structure Recovers (sha256 : Bytes → Sum) (clock : Clock) (envelope : Envelope) (localIdentity : Identity) (d : Disk)
    (deps : PolicyV2Dependencies) (current : Option StateV2) (recoveryPlan : EnforcementPlan) : Prop where
  read : readFile false d.v2 = some current
  newer : checkCurrent sha256 envelope localIdentity current = none
  detected : envelope.phase = enforcePhase → deps.detect.isSome
  plan : peripheralPolicyV2RecoveryPlan clock current (if envelope.phase = Apply.clearLegacy then legacyPolicies d else []) []
    (envelope.phase = enforcePhase) deps = some recoveryPlan

variable {α : Type} {fails : Bool} {legacy : List Policy} {o : Outcome} {deps : PolicyV2Dependencies} {e : Enforcer}
  {plan recoveryPlan : EnforcementPlan} {f : File α} {current : Option StateV2} {a : StoreAnswers}

lemma readFile_of_some {x : Option α} (h : readFile fails f = some x) : readFile false f = some x := by
  cases fails
  · exact h
  · cases h

lemma legacy_of_load (h : (readFile fails d.legacy).map (fun p => p.getD []) = some legacy) : legacy = legacyPolicies d := by
  unfold legacyPolicies
  cases fails <;> cases hd : d.legacy <;> simp_all [readFile]

lemma checkCurrent_rejects (hnewer : ∀ s, d.v2 = .holds s → s.revision < envelope.revision)
    (hread : readFile false d.v2 = some current) (h : checkCurrent sha256 envelope localIdentity current = some o) : o ≠ .applied := by
  cases current with
  | none => cases h
  | some s =>
    have hrevision := hnewer s (holds_of_readFile hread)
    rw [checkCurrent, if_neg hrevision.not_gt, if_neg hrevision.ne'] at h
    split_ifs at h
    cases h
    exact nofun

lemma plansV2_ok (h : plansV2 clock envelope current legacy deps = .ok (e, plan, recoveryPlan)) :
    plan = planFor clock envelope.phase envelope.effectivePolicies (deps.detect.getD []) ∧
      (envelope.phase = enforcePhase → deps.detect.isSome) ∧
      peripheralPolicyV2RecoveryPlan clock current legacy [] (envelope.phase = enforcePhase) deps = some recoveryPlan := by
  unfold plansV2 at h
  cases henforcer : deps.enforcer <;> cases hdetect : deps.detect <;>
    cases hplan : peripheralPolicyV2RecoveryPlan clock current legacy [] (envelope.phase = enforcePhase) deps <;>
    by_cases hphase : envelope.phase = enforcePhase <;>
    simp_all [planFor, throw, throwThe, MonadExceptOf.throw, bind, Except.bind, pure, Except.pure]

def Ended (sha256 : Bytes → Sum) (clock : Clock) (envelope : Envelope) (localIdentity : Identity) (d : Disk)
    (deps : PolicyV2Dependencies) (a : StoreAnswers) (r : Result) (w : World) : Prop :=
  (w.enforced = [] ∧ r.outcome ≠ .applied) ∨
    ∃ current recoveryPlan, Recovers sha256 clock envelope localIdentity d deps current recoveryPlan ∧
      Installed d.v2 envelope (planFor clock envelope.phase envelope.effectivePolicies (deps.detect.getD [])) recoveryPlan a
        r.outcome w

lemma ended_stopped (ho : o ≠ .applied) :
    Triple (fun w => w = ⟨d, [], []⟩) (pure (result envelope o) : M Result)
      (Ended sha256 clock envelope localIdentity d deps a) := by
  refine Triple.pure fun w hw => .inl ⟨?_, ho⟩
  rw [hw]

lemma apply_ended (hvalid : validateEnvelopeV2 sha256 envelope localIdentity = none)
    (hnewer : ∀ s, d.v2 = .holds s → s.revision < envelope.revision) (deps : PolicyV2Dependencies) (a : StoreAnswers) :
    Triple (fun w => w = ⟨d, [], []⟩) (applyPeripheralPolicyV2 sha256 clock envelope localIdentity deps a)
      (Ended sha256 clock envelope localIdentity d deps a) := by
  rw [applyPeripheralPolicyV2, hvalid]
  refine Triple.bind (Q := fun r w => r = readFile a.loadV2 d.v2 ∧ w = ⟨d, [], []⟩) (by rintro w rfl; exact ⟨rfl, rfl⟩) fun r =>
    Triple.assume fun hread => ?_
  cases r with
  | none => exact ended_stopped nofun
  | some current =>
    have hread := readFile_of_some hread.symm
    cases hcheck : checkCurrent sha256 envelope localIdentity current with
    | some o =>
      simp only [hcheck]
      exact ended_stopped (checkCurrent_rejects hnewer hread hcheck)
    | none =>
      simp only [hcheck]
      refine Triple.bind (Q := fun r w => (∀ legacy, r = some legacy →
        legacy = if envelope.phase = Apply.clearLegacy then legacyPolicies d else []) ∧ w = ⟨d, [], []⟩) ?_ fun r =>
        Triple.assume fun hlegacy => ?_
      · rintro w rfl
        split_ifs
        · exact ⟨fun legacy h => legacy_of_load h, rfl⟩
        · exact ⟨fun legacy h => (Option.some.inj h).symm, rfl⟩
      · cases r with
        | none => exact ended_stopped nofun
        | some legacy =>
          have hlegacy := hlegacy legacy rfl
          cases hplans : plansV2 clock envelope current legacy deps with
          | error reason =>
            simp only [hplans]
            exact ended_stopped nofun
          | ok plans =>
            obtain ⟨e, plan, recoveryPlan⟩ := plans
            obtain ⟨rfl, hdetected, hrecovery⟩ := plansV2_ok hplans
            simp only [hplans]
            refine Triple.bind (fun w hw => install_installed _ _ w ⟨congrArg (fun w => w.v2) hw, congrArg World.enforced hw⟩) fun o => ?_
            rw [hlegacy] at hrecovery
            exact Triple.pure fun w hw => .inr ⟨current, recoveryPlan, ⟨hread, hcheck, hdetected, hrecovery⟩, hw⟩

lemma phase_cases (hvalid : validateEnvelopeV2 sha256 envelope localIdentity = none) :
    envelope.phase = Apply.clearLegacy ∧ envelope.effectivePolicies = some [] ∨ envelope.phase = enforcePhase := by
  have hphase : envelope.phase = Apply.clearLegacy ∨ envelope.phase = enforcePhase := by
    by_contra hphase
    rw [validateEnvelopeV2, if_pos (.inr (.inr (not_or.mp hphase)))] at hvalid
    cases hvalid
  rcases hphase with hphase | hphase
  · refine .inl ⟨hphase, ?_⟩
    rw [validateEnvelopeV2] at hvalid
    split at hvalid
    · cases hvalid
    split at hvalid
    · cases hvalid
    split at hvalid
    · cases hvalid
    split at hvalid
    · rename_i policies _ hpolicies
      split at hvalid
      · cases hvalid
      · rename_i hclear
        rw [hpolicies, not_not.mp fun hne => hclear ⟨hphase, hne⟩]
    · cases hvalid
  · exact .inr hphase

lemma clear_ne_enforce : Apply.clearLegacy ≠ enforcePhase := by decide

lemma missing_of_readFile (h : readFile false f = some none) : f = .missing := by
  cases f <;> simp_all [readFile]

variable {s : StateV2}

lemma valid_of_checkCurrent (h : checkCurrent sha256 envelope localIdentity (some s) = none) :
    validateEnvelopeV2 sha256 (persistedEnvelope s) localIdentity = none := by
  rw [checkCurrent] at h
  split_ifs at h with hvalid
  exact not_not.mp hvalid

lemma recoveryPlan_state (hvalid : validateEnvelopeV2 sha256 (persistedEnvelope s) localIdentity = none) (ready : Bool) (detected : List DetectedPeripheral) :
    peripheralPolicyV2RecoveryPlan clock (some s) legacy detected ready deps =
      if effectivePoliciesAsLegacy s.effectivePolicies = [] then some (planFor clock s.phase s.effectivePolicies [])
      else (if ready then some detected else deps.detect).map (planFor clock s.phase s.effectivePolicies) := by
  rcases phase_cases hvalid with ⟨hphase, hpolicies⟩ | hphase
  · change s.phase = _ at hphase
    change s.effectivePolicies = _ at hpolicies
    simp [peripheralPolicyV2RecoveryPlan, planFor, hphase, hpolicies, clear_ne_enforce, effectivePoliciesAsLegacy]
  · change s.phase = _ at hphase
    simp only [peripheralPolicyV2RecoveryPlan, planFor, hphase, if_true, Option.isSome_some]
    rfl

lemma planFor_eq_iff (hvalid : validateEnvelopeV2 sha256 (persistedEnvelope s) localIdentity = none)
    {devices : List DetectedPeripheral} :
    planFor clock s.phase s.effectivePolicies devices = planFor clock s.phase s.effectivePolicies [] ↔
      (evaluateEffectiveV2 clock devices (effectivePoliciesAsLegacy s.effectivePolicies)).any isDisabled = false := by
  rcases phase_cases hvalid with ⟨hphase, hpolicies⟩ | hphase
  · change s.phase = _ at hphase
    change s.effectivePolicies = _ at hpolicies
    have hnone : effectivePoliciesAsLegacy s.effectivePolicies = [] := by rw [hpolicies]; rfl
    simp [planFor, hphase, clear_ne_enforce, hnone, effective_nil]
  · change s.phase = _ at hphase
    simp only [planFor, hphase, if_true]
    exact planEnforcement_eq_iff

lemma recovery_enforce
    (h : Recovers sha256 clock envelope localIdentity d deps current recoveryPlan) (hphase : envelope.phase = enforcePhase) :
    recoveryPlan = previousPlan clock d (deps.detect.getD []) ↔
      isRestorable sha256 clock envelope localIdentity d deps.detect = true := by
  obtain ⟨devices, hdevices⟩ := Option.isSome_iff_exists.mp (h.detected hphase)
  have hplan := h.plan
  have hclear : (enforcePhase == Apply.clearLegacy) = false := rfl
  rw [hphase, if_neg clear_ne_enforce.symm] at hplan
  cases current with
  | none =>
    have hrecovery : planEnforcement [] [] = recoveryPlan := Option.some.inj hplan
    simp only [isRestorable, previousPlan, missing_of_readFile h.read, hphase, hclear, hdevices, ← hrecovery, Bool.false_or]
    rw [eq_comm]
    exact legacy_plan_eq_iff
  | some s =>
    have hvalid := valid_of_checkCurrent h.newer
    have hrecovery : planFor clock s.phase s.effectivePolicies [] = recoveryPlan := by
      rw [recoveryPlan_state hvalid] at hplan
      rw [decide_eq_true rfl, if_pos rfl] at hplan
      split_ifs at hplan <;> exact Option.some.inj hplan
    simp only [isRestorable, previousPlan, holds_of_readFile h.read, hphase, hclear, hdevices, ← hrecovery, Bool.false_or]
    rw [eq_comm, Option.getD_some, planFor_eq_iff hvalid]
    simp [hvalid]

lemma recovery_clear
    (h : Recovers sha256 clock envelope localIdentity d deps current recoveryPlan) (hphase : envelope.phase = Apply.clearLegacy) :
    recoveryPlan = previousPlan clock d (deps.detect.getD []) := by
  have hplan := h.plan
  rw [hphase, if_pos rfl, decide_eq_false clear_ne_enforce] at hplan
  cases current with
  | none =>
    rw [previousPlan, missing_of_readFile h.read]
    by_cases hnone : legacyPolicies d = []
    · have hrecovery : planEnforcement [] [] = recoveryPlan := by simpa [peripheralPolicyV2RecoveryPlan, hnone] using hplan
      simp only [← hrecovery, hnone]
      exact (planEnforcement_eq_iff.mpr (by simp [evaluate, evaluateOne, verdict_nil])).symm
    · simp only [peripheralPolicyV2RecoveryPlan, if_neg hnone] at hplan
      obtain ⟨devices, hdevices, hrecovery⟩ := Option.map_eq_some_iff.mp hplan
      have hdevices : deps.detect = some devices := hdevices
      rw [hdevices, ← hrecovery]
      rfl
  | some s =>
    have hvalid := valid_of_checkCurrent h.newer
    rw [previousPlan, holds_of_readFile h.read]
    rw [recoveryPlan_state hvalid, if_neg Bool.false_ne_true] at hplan
    split_ifs at hplan with hnone
    · rw [← Option.some.inj hplan, eq_comm]
      refine (planFor_eq_iff hvalid).mpr ?_
      rw [hnone]
      exact effective_nil _
    · obtain ⟨devices, hdevices, hrecovery⟩ := Option.map_eq_some_iff.mp hplan
      rw [hdevices, ← hrecovery]
      rfl

lemma restored_of_ended {r : Result × World} (h : Ended sha256 clock envelope localIdentity d deps a r.1 r.2)
    (hplan : ∀ current recoveryPlan, Recovers sha256 clock envelope localIdentity d deps current recoveryPlan →
      recoveryPlan = previousPlan clock d (deps.detect.getD [])) : Restored clock envelope d (deps.detect.getD []) a r := by
  rcases h with ⟨hnone, hne⟩ | ⟨current, recoveryPlan, hrecovers, hinstalled⟩
  · exact ⟨fun _ h => absurd hnone h, fun h => absurd h hne⟩
  · have hprevious := hplan current recoveryPlan hrecovers
    cases ho : r.1.outcome with
    | applied =>
      rw [ho] at hinstalled
      obtain ⟨-, hv2, out, henforced, hverified⟩ := hinstalled
      refine ⟨by simp [ho], fun _ => ⟨hv2, out, ?_, hverified⟩⟩
      rw [henforced]
      rfl
    | rejected reason =>
      rw [ho] at hinstalled
      obtain ⟨-, hv2, out, out', henforced⟩ := hinstalled
      refine ⟨fun _ _ => ⟨?_, hv2⟩, by simp [ho]⟩
      rw [henforced, ← hprevious]
      rfl

def fullDisk : StoreAnswers where
  loadV2 := false
  loadLegacy := false
  clearLegacy := ⟨.written, false⟩
  reloadLegacy := false
  restoreLegacy := ⟨.written, false⟩
  saveV2 := ⟨.untouched, true⟩
  reloadV2 := false

def verifying : Enforcer := fun _ => ⟨"registry".toList, true, true, []⟩

section

variable (hvalid : validateEnvelopeV2 sha256 envelope localIdentity = none) (hphase : envelope.phase = enforcePhase)
  (hcheck : checkCurrent sha256 envelope localIdentity current = none)

include hvalid hphase hcheck

lemma apply_installed (hread : readFile a.loadV2 d.v2 = some current)
    (hplans : plansV2 clock envelope current [] deps = .ok (e, plan, recoveryPlan)) :
    Triple (fun w => w = ⟨d, [], []⟩) (applyPeripheralPolicyV2 sha256 clock envelope localIdentity deps a) fun r w =>
      Installed d.v2 envelope plan recoveryPlan a r.outcome w := by
  rw [applyPeripheralPolicyV2, hvalid]
  refine Triple.bind (Q := fun r w => r = some current ∧ w = ⟨d, [], []⟩) (by rintro w rfl; exact ⟨hread, rfl⟩) fun r =>
    Triple.assume fun hr => ?_
  subst hr
  simp only [hcheck, hphase, if_neg clear_ne_enforce.symm]
  refine Triple.bind (Q := fun r w => r = some [] ∧ w = ⟨d, [], []⟩) (by rintro w rfl; exact ⟨rfl, rfl⟩) fun r =>
    Triple.assume fun hr => ?_
  subst hr
  simp only [hplans]
  exact Triple.bind (fun w hw => install_installed _ _ w ⟨congrArg (fun w => w.v2) hw, congrArg World.enforced hw⟩)
    fun o => Triple.pure fun w hw => hw

lemma restorable_of_restored {devices : List DetectedPeripheral} (hread : readFile false d.v2 = some current)
    (h : Restored clock envelope d devices fullDisk
      (run sha256 clock envelope localIdentity d ⟨some devices, some verifying, none⟩ fullDisk)) :
    isRestorable sha256 clock envelope localIdentity d (some devices) = true := by
  generalize hdeps : (⟨some devices, some verifying, none⟩ : PolicyV2Dependencies) = deps at h
  obtain ⟨recoveryPlan, hplan⟩ : ∃ recoveryPlan, peripheralPolicyV2RecoveryPlan clock current [] [] true deps =
      some recoveryPlan := by
    subst hdeps
    unfold peripheralPolicyV2RecoveryPlan
    dsimp only
    split_ifs <;> exact ⟨_, rfl⟩
  have hplans : plansV2 clock envelope current [] deps =
      .ok (verifying, planFor clock envelope.phase envelope.effectivePolicies devices, recoveryPlan) := by
    subst hdeps
    simp only [plansV2, hphase, hplan, planFor, decide_true, if_true, Option.elim_some]
    rfl
  have hinstalled := apply_installed (a := fullDisk) hvalid hphase hcheck hread hplans _ rfl
  rw [← run] at hinstalled
  have hrecovers : Recovers sha256 clock envelope localIdentity d deps current recoveryPlan := by
    refine ⟨hread, hcheck, fun _ => hdeps ▸ rfl, ?_⟩
    rw [hphase, if_neg clear_ne_enforce.symm, decide_eq_true rfl]
    exact hplan
  cases ho : (run sha256 clock envelope localIdentity d deps fullDisk).1.outcome with
  | applied =>
    rw [ho] at hinstalled
    cases hinstalled.1
  | rejected reason =>
    rw [ho] at hinstalled
    obtain ⟨hreason, -, out, out', henforced⟩ := hinstalled
    have hfailed := h.failed (by rcases hreason with rfl | rfl <;> simp [ho]) (by simp [henforced])
    rw [henforced] at hfailed
    have hrestored := (recovery_enforce hrecovers hphase).mp
    rw [← hdeps] at hrestored
    exact hrestored (Option.some.inj hfailed.1)

end

theorem failed_apply_restores_iff (hvalid : validateEnvelopeV2 sha256 envelope localIdentity = none)
    (hnewer : ∀ s, d.v2 = .holds s → s.revision < envelope.revision) :
    (∀ enforcer classes a, Restored clock envelope d (detect.getD []) a
        (run sha256 clock envelope localIdentity d ⟨detect, enforcer, classes⟩ a)) ↔
      isRestorable sha256 clock envelope localIdentity d detect = true := by
  constructor
  · intro h
    rcases phase_cases hvalid with ⟨hphase, -⟩ | hphase
    · simp [isRestorable, hphase]
    · cases detect with
      | none => cases hd : d.v2 <;> simp [isRestorable, hd]
      | some devices =>
        have hrestored := h (some verifying) none fullDisk
        cases hd : d.v2 with
        | missing =>
          have hread : readFile false d.v2 = some none := by rw [hd]; rfl
          exact restorable_of_restored hvalid hphase rfl hread hrestored
        | corrupt => simp [isRestorable, hd]
        | holds s =>
          have hrevision := hnewer s hd
          by_cases hs : validateEnvelopeV2 sha256 (persistedEnvelope s) localIdentity = none
          · have hread : readFile false d.v2 = some (some s) := by rw [hd]; rfl
            refine restorable_of_restored hvalid hphase ?_ hread hrestored
            rw [checkCurrent, if_neg (not_not.mpr hs), if_neg hrevision.not_gt, if_neg hrevision.ne']
          · simp [isRestorable, hd, hs]
  · intro h enforcer classes a
    refine restored_of_ended (apply_ended hvalid hnewer ⟨detect, enforcer, classes⟩ a _ rfl) fun current recoveryPlan hrecovers => ?_
    rcases phase_cases hvalid with ⟨hphase, -⟩ | hphase
    · exact recovery_clear hrecovers hphase
    · exact (recovery_enforce hrecovers hphase).mpr h

end Restore

section Scenario

def zeroSum : Bytes → Sum := fun _ => ⟨List.replicate 32 0, rfl⟩

def exactClock : Clock := ⟨fun a b => a == b, fun _ => false⟩

def device : Identity := ⟨"d".toList, "o".toList, "s".toList, some []⟩

def stick : DetectedPeripheral := ⟨"usb".toList, [], [], [], "storage".toList, "usb-1".toList⟩

def blockStorage : PolicyV2 where
  policyId := "p".toList
  source := "organization".toList
  effectiveClass := "storage".toList
  configuredClass := "storage".toList
  action := "block".toList
  priority := 0
  exceptions := some []

def envelopeOf (phase : Text) (revision : ℤ) (policies : List PolicyV2) : Envelope where
  schemaVersion := 2
  phase := phase
  identity := device
  revision := revision
  digest := digestText (zeroSum [])
  generatedAt := []
  reason := []
  effectivePolicies := some policies

def blockedDisk : Disk := ⟨.holds (nextState (envelopeOf enforcePhase 1 [blockStorage])), .missing⟩

def legacyDisk : Disk := ⟨.missing, .holds (effectivePoliciesAsLegacy (some [blockStorage]))⟩

theorem cleared_policies_restored :
    Restored exactClock (envelopeOf Apply.clearLegacy 2 []) blockedDisk [stick] fullDisk
      (run zeroSum exactClock (envelopeOf Apply.clearLegacy 2 []) device blockedDisk ⟨some [stick], some verifying, none⟩ fullDisk) := by
  have hnewer : ∀ s, blockedDisk.v2 = .holds s → s.revision < (envelopeOf Apply.clearLegacy 2 []).revision := by
    intro s hs
    cases hs
    decide
  have hrestorable : isRestorable zeroSum exactClock (envelopeOf Apply.clearLegacy 2 []) device blockedDisk (some [stick]) = true := by
    decide +kernel
  exact (failed_apply_restores_iff (by decide +kernel) hnewer).mpr hrestorable (some verifying) none fullDisk

/-- The write of an empty policy set fails: the stick that the old state disables, and the gate of the legacy policy, are not put
back. -/
theorem restore_leaves_out_devices :
    validateEnvelopeV2 zeroSum (envelopeOf enforcePhase 2 []) device = none ∧
      ((run zeroSum exactClock (envelopeOf enforcePhase 2 []) device blockedDisk ⟨some [stick], some verifying, none⟩ fullDisk).1.outcome =
          .rejected .persistenceFailed ∧
        (run zeroSum exactClock (envelopeOf enforcePhase 2 []) device blockedDisk ⟨some [stick], some verifying, none⟩
          fullDisk).2.enforced.getLast?.map Prod.fst = some ⟨[⟨"storage".toList, false⟩], [], []⟩ ∧
        previousPlan exactClock blockedDisk [stick] = ⟨[⟨"storage".toList, false⟩], ["usb-1".toList], []⟩) ∧
      (run zeroSum exactClock (envelopeOf enforcePhase 2 []) device legacyDisk ⟨some [stick], some verifying, none⟩ fullDisk).1.outcome =
          .rejected .persistenceFailed ∧
        (run zeroSum exactClock (envelopeOf enforcePhase 2 []) device legacyDisk ⟨some [stick], some verifying, none⟩
          fullDisk).2.enforced.getLast?.map Prod.fst = some ⟨[], [], []⟩ ∧
        previousPlan exactClock legacyDisk [stick] = ⟨[⟨"storage".toList, false⟩], ["usb-1".toList], []⟩ := by
  decide +kernel

end Scenario

end Breeze.Peripheral.LastKnownGood
