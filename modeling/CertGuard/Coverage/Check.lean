import CertGuard.Lib.FanOut
import CertGuard.Scheduler.Rescan

/-!
# Checking what answers for the names of a certificate

`coverage.Check` connects to every name of a certificate that is a host, six at a time. The
sweeps use the list that a plain loop over the names would make; whatever order the
connections come back in, it is the list that is handed out.

## Main definitions

* `CoveredName.wildcard`, `CoveredName.ofScan` — what is reported of a name
* `checkPlan` — the names as the jobs of the loop

## Main results

* `check_any_order` — at most six connections at a time, one for each host, and in the end the
  list that the sweeps use
-/

namespace CertGuard

/-- What is reported of a wildcard. -/
def CoveredName.ofWildcard (name : GoString) : CoveredName where
  name := name
  status := .wildcard
  detail := GoString.ofString "not a hostname — nothing to connect to"

/-- What is reported of a host, from what came of connecting to it. -/
def CoveredName.ofScan (c : Cert) (name : GoString) : Except String Served → CoveredName
  | .error msg => { name := name, status := .unreachable, detail := GoString.ofString msg }
  | .ok served =>
    { name := name
      status := if served.sha256 = c.sha256 then .same else .different
      subject := served.subject
      sha256 := GoString.ofString served.sha256 }

/-- The places of the semaphore. -/
def checkSlots : Nat := 6

/-- The loop of `coverage.Check`: wildcards are reported at once, every other name by the thread
that connects to it. `answers` is what comes of the connection for the name at a place. -/
def checkPlan (c : Cert) (answers : Nat → Except String Served) :
    FanOut.Plan (Option CoveredName) where
  size := c.dnsNames.length
  blank := none
  first i :=
    match c.dnsNames[i]? with
    | some name => if isWildcard name then some (CoveredName.ofWildcard name) else none
    | none => none
  needs i :=
    match c.dnsNames[i]? with
    | some name => !isWildcard name
    | none => false
  fill i _ := c.dnsNames[i]?.map fun name => CoveredName.ofScan c name (answers i)

/-- What a plain loop over the names reports. -/
def checkResult (c : Cert) (answers : Nat → Except String Served) : List CoveredName :=
  c.dnsNames.mapIdx fun i name =>
    if isWildcard name then CoveredName.ofWildcard name
    else CoveredName.ofScan c name (answers i)

theorem result_checkPlan (c : Cert) (answers : Nat → Except String Served) :
    (checkPlan c answers).result = (checkResult c answers).map some := by
  refine List.ext_getElem? fun i => ?_
  simp only [FanOut.Plan.result, checkResult, List.getElem?_map, List.getElem?_mapIdx]
  by_cases hi : i < c.dnsNames.length
  · have hname : c.dnsNames[i]? = some c.dnsNames[i] := List.getElem?_eq_getElem hi
    have hrange : (List.range (checkPlan c answers).size)[i]? = some i := by
      simp [checkPlan, hi]
    rw [hrange, hname]
    cases hw : isWildcard c.dnsNames[i] <;> simp [FanOut.Plan.final, checkPlan, hname, hw]
  · have hname : c.dnsNames[i]? = none := List.getElem?_eq_none (Nat.not_lt.mp hi)
    have hrange : (List.range (checkPlan c answers).size)[i]? = none := by
      simp [checkPlan, Nat.not_lt.mp hi]
    rw [hrange, hname]
    rfl

/-- Where connecting to a name ends the same way whenever it is done, the list is that of
the sweeps. -/
theorem checkResult_eq_coverageCheck (c : Cert) (reach : GoString → Except String Served)
    (answers : Nat → Except String Served)
    (hreach : ∀ i name, c.dnsNames[i]? = some name → answers i = reach name) :
    checkResult c answers = coverageCheck reach c := by
  refine List.ext_getElem? fun i => ?_
  simp only [checkResult, coverageCheck, List.getElem?_mapIdx, List.getElem?_map]
  cases hname : c.dnsNames[i]? with
  | none => rfl
  | some name =>
    rw [Option.map_some, Option.map_some, hreach i name hname]
    cases isWildcard name with
    | true => rfl
    | false => cases reach name <;> rfl

/-- Only hosts are connected to. -/
theorem needs_checkPlan {c : Cert} {answers : Nat → Except String Served} {i : Nat} :
    (checkPlan c answers).needs i = true ↔
      ∃ name, c.dnsNames[i]? = some name ∧ isWildcard name = false := by
  simp only [checkPlan]
  cases c.dnsNames[i]? <;> simp

/-- The states of a check under way. -/
def CheckRun (c : Cert) (answers : Nat → Except String Served) (steps : List FanOut.Action)
    (s : FanOut.State (Option CoveredName)) : Prop :=
  Transition.run (FanOut.step (checkPlan c answers) checkSlots) (checkPlan c answers).initial steps
    = some s

/-- Whatever order the threads of a check take their steps in: at most six are connecting at a
time; the name at each place of the list is connected to at most once, and only if it is a host;
what is handed out is what the plain loop reports, which is the list of the sweeps where a name
answers alike whenever it is asked, and nobody writes to it afterwards; and the check always comes
to that. -/
theorem check_any_order (c : Cert) (answers : Nat → Except String Served)
    (steps : List FanOut.Action) (s : FanOut.State (Option CoveredName))
    (hrun : CheckRun c answers steps s) :
    FanOut.inFlight (checkPlan c answers) s ≤ 6 ∧
    (∀ i, steps.count (.work i) ≤ 1 ∧ (steps.count (.work i) = 1 →
      ∃ name, c.dnsNames[i]? = some name ∧ isWildcard name = false)) ∧
    (∀ out, s.returned = some out → out = (checkResult c answers).map some ∧
      (∀ reach, (∀ i name, c.dnsNames[i]? = some name → answers i = reach name) →
        out = (coverageCheck reach c).map some) ∧
      ∀ a, FanOut.step (checkPlan c answers) checkSlots s a = none) ∧
    (∃ more s', CheckRun c answers (steps ++ more) s' ∧
      s'.returned = some ((checkResult c answers).map some)) ∧
    ((∀ a, FanOut.step (checkPlan c answers) checkSlots s a = none) →
      s.returned = some ((checkResult c answers).map some)) := by
  have hresult := result_checkPlan c answers
  have hslots : 0 < checkSlots := by decide
  refine ⟨FanOut.inFlight_le hrun, fun i => ?_, fun out hout => ?_, ?_, fun hstuck => ?_⟩
  · obtain ⟨hle, hone⟩ := FanOut.count_work i hrun
    exact ⟨hle, fun h => needs_checkPlan.mp (hone h).2⟩
  · have heq := (FanOut.returned_eq hrun hout).trans hresult
    refine ⟨heq, fun reach hreach => ?_, ?_⟩
    · rw [heq, checkResult_eq_coverageCheck c reach answers hreach]
    · exact FanOut.step_of_returned (FanOut.inv_run hrun) (by rw [hout]; rfl)
  · obtain ⟨more, s', hmore, hret⟩ := FanOut.exists_run_returned hslots hrun
    refine ⟨more, s', ?_, hresult ▸ hret⟩
    rw [CheckRun, Transition.run_append, hrun, Option.bind_some, hmore]
  · exact hresult ▸ (FanOut.returned_of_stuck hslots hrun hstuck).1

/-- A certificate for a host and a wildcard. -/
def demoCovered : Cert :=
  scanRowValues 1 (insertScan 0 "" (scanResult "a.example" 443 ""
    { sha256 := "ab", dnsNames := [GoString.ofString "a.example", GoString.ofString "*.example"] }))

/-- The connections to them. -/
def demoRefused : Nat → Except String Served := fun _ => .error "refused"

/-- Its host is connected to before the loop has come to the wildcard. -/
def demoSteps : List FanOut.Action :=
  [.start, .acquire 0, .work 0, .start, .release 0, .signOff 0, .collect]

theorem check_any_order_demo :
    ∃ s, CheckRun demoCovered demoRefused demoSteps s ∧ s.returned.isSome ∧
      FanOut.inFlight (checkPlan demoCovered demoRefused) s ≤ 6 := by
  have hrun : ∃ s, CheckRun demoCovered demoRefused demoSteps s ∧ s.returned.isSome :=
    ⟨_, rfl, rfl⟩
  obtain ⟨s, hrun, hret⟩ := hrun
  exact ⟨s, hrun, hret, (check_any_order demoCovered demoRefused demoSteps s hrun).1⟩

end CertGuard
