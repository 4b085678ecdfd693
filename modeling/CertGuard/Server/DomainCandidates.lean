import CertGuard.Lib.FanOut
import CertGuard.Server.Routes

/-!
# Looking up the domains behind a set of hosts

`handleDomainCandidates` reduces hosts to the domains they are under, and asks the registries
about those that are not tracked, six at a time. Whatever order the answers come back in, the
response is the one that asking one domain after the other would give.

## Main definitions

* `collapse` — the loop that finds the domains
* `candidatePlan` — the domains as the jobs of the loop that asks

## Main results

* `collapse_eq` — the loop finds each domain once, with the hosts behind it
* `candidates_any_order` — no domain is asked about twice, none that is tracked, never more than
  forty, and the response does not depend on the order
-/

namespace CertGuard

/-! ### Which domains there are -/

/-- The body of the loop over the hosts: `order`, and `from` as a map. -/
def collapseHost (registrable : String → Option String)
    (found : List String × (String → Option (List String))) (h : String) :
    List String × (String → Option (List String)) :=
  match registrable h with
  | none => found
  | some d =>
    (if (found.2 d).isNone then found.1 ++ [d] else found.1,
      Function.update found.2 d (some ((found.2 d).getD [] ++ [h])))

/-- The loop over the hosts. -/
def collapse (registrable : String → Option String) (hosts : List String) :
    List String × (String → Option (List String)) :=
  hosts.foldl (collapseHost registrable) ([], fun _ => none)

/-- The hosts with the domains they are under. -/
def underDomains (registrable : String → Option String) (hosts : List String) :
    List (String × String) :=
  hosts.filterMap fun h => (registrable h).map fun d => (d, h)

/-- The hosts under a domain. -/
def hostsUnder (registrable : String → Option String) (hosts : List String) (d : String) :
    List String :=
  ((underDomains registrable hosts).filter fun p => p.1 = d).map Prod.snd

theorem underDomains_append (registrable : String → Option String) (hosts hosts' : List String) :
    underDomains registrable (hosts ++ hosts')
      = underDomains registrable hosts ++ underDomains registrable hosts' :=
  List.filterMap_append

theorem hostsUnder_append (registrable : String → Option String) (hosts hosts' : List String)
    (d : String) : hostsUnder registrable (hosts ++ hosts') d
      = hostsUnder registrable hosts d ++ hostsUnder registrable hosts' d := by
  rw [hostsUnder, underDomains_append, List.filter_append, List.map_append]
  rfl

theorem hostsUnder_eq_nil {registrable : String → Option String} {hosts : List String}
    {d : String} :
    hostsUnder registrable hosts d = [] ↔ d ∉ (underDomains registrable hosts).map Prod.fst := by
  simp only [hostsUnder, List.map_eq_nil_iff, List.filter_eq_nil_iff, List.mem_map,
    decide_eq_true_eq]
  constructor
  · rintro h ⟨q, hq, rfl⟩
    exact h q hq rfl
  · intro h q hq hd
    exact h ⟨q, hq, hd⟩

/-- What the loop has found after some hosts. -/
structure Collapsed (registrable : String → Option String) (hosts : List String)
    (found : List String × (String → Option (List String))) : Prop where
  order : found.1 = ((underDomains registrable hosts).map Prod.fst).eraseDups
  nodup : found.1.Nodup
  behind : ∀ d, (found.2 d).getD [] = hostsUnder registrable hosts d
  seen : ∀ d, found.2 d = none ↔ hostsUnder registrable hosts d = []

theorem collapsed_nil (registrable : String → Option String) :
    Collapsed registrable [] ([], fun _ => none) where
  order := rfl
  nodup := List.nodup_nil
  behind _ := rfl
  seen d := by simp [hostsUnder, underDomains]

/-- One more host. -/
theorem Collapsed.snoc {registrable : String → Option String} {hosts : List String}
    {found : List String × (String → Option (List String))}
    (h : Collapsed registrable hosts found) (host : String) :
    Collapsed registrable (hosts ++ [host]) (collapseHost registrable found host) := by
  cases hreg : registrable host with
  | none =>
    have hnone : underDomains registrable [host] = [] := by simp [underDomains, hreg]
    have hsame : underDomains registrable (hosts ++ [host]) = underDomains registrable hosts := by
      rw [underDomains_append, hnone, List.append_nil]
    have hbehind : ∀ d, hostsUnder registrable (hosts ++ [host]) d
        = hostsUnder registrable hosts d := fun d => by rw [hostsUnder, hsame, hostsUnder]
    simp only [collapseHost, hreg]
    exact ⟨by rw [hsame, h.order], h.nodup, fun d => by rw [hbehind, h.behind],
      fun d => by rw [hbehind, h.seen]⟩
  | some d =>
    have hone : underDomains registrable [host] = [(d, host)] := by simp [underDomains, hreg]
    have hsnoc : underDomains registrable (hosts ++ [host])
        = underDomains registrable hosts ++ [(d, host)] := by rw [underDomains_append, hone]
    have hself : hostsUnder registrable (hosts ++ [host]) d
        = hostsUnder registrable hosts d ++ [host] := by
      rw [hostsUnder_append]
      simp [hostsUnder, hone]
    have hother : ∀ e, e ≠ d → hostsUnder registrable (hosts ++ [host]) e
        = hostsUnder registrable hosts e := fun e he => by
      rw [hostsUnder_append]
      simp [hostsUnder, hone, he.symm]
    have hseen : (found.2 d).isNone = true ↔ d ∉ found.1 := by
      rw [Option.isNone_iff_eq_none, h.seen, hostsUnder_eq_nil, h.order, List.mem_eraseDups]
    simp only [collapseHost, hreg]
    refine ⟨?_, ?_, fun e => ?_, fun e => ?_⟩
    · rw [hsnoc, List.map_append, List.eraseDups_append, ← h.order]
      by_cases hmem : d ∈ found.1
      · have hin : d ∈ (underDomains registrable hosts).map Prod.fst := by
          rw [← List.mem_eraseDups, ← h.order]
          exact hmem
        rw [if_neg (fun hn => hseen.mp hn hmem)]
        simp [List.removeAll, hin]
      · have hout : d ∉ (underDomains registrable hosts).map Prod.fst := by
          rw [← List.mem_eraseDups, ← h.order]
          exact hmem
        rw [if_pos (hseen.mpr hmem)]
        simp [List.removeAll, hout, List.eraseDups_cons]
    · by_cases hmem : d ∈ found.1
      · rw [if_neg (fun hn => hseen.mp hn hmem)]
        exact h.nodup
      · rw [if_pos (hseen.mpr hmem)]
        exact List.Nodup.append h.nodup (List.nodup_singleton d) (by simpa using hmem)
    · by_cases he : e = d
      · subst he
        simp only [Function.update_self, hself, Option.getD_some, h.behind]
      · simp only [Function.update_of_ne he, hother e he, h.behind]
    · by_cases he : e = d
      · subst he
        simp [hself]
      · simp only [Function.update_of_ne he, hother e he, h.seen]

/-- The loop finds each domain once, where it was seen first, with the hosts behind it. -/
theorem collapsed_collapse (registrable : String → Option String) (hosts : List String) :
    Collapsed registrable hosts (collapse registrable hosts) := by
  induction hosts using List.reverseRecOn with
  | nil => exact collapsed_nil registrable
  | append_singleton hosts host ih =>
    rw [collapse, List.foldl_append]
    exact ih.snoc host

/-- The domains of the loop are those the handler answers about. -/
theorem collapse_eq (registrable : String → Option String) (hosts : List String) :
    (((collapse registrable hosts).1.take 40).map fun d =>
      (d, ((collapse registrable hosts).2 d).getD [])) = candidateDomains registrable hosts := by
  have h := collapsed_collapse registrable hosts
  rw [h.order]
  refine List.map_congr_left fun d _ => ?_
  rw [h.behind]
  rfl

/-- No domain is found twice. -/
theorem nodup_candidateDomains (registrable : String → Option String) (hosts : List String) :
    ((candidateDomains registrable hosts).map Prod.fst).Nodup := by
  rw [← collapse_eq, List.map_map]
  have hid : (Prod.fst ∘ fun d => (d, ((collapse registrable hosts).2 d).getD [])) = id := rfl
  rw [hid, List.map_id]
  exact (collapsed_collapse registrable hosts).nodup.sublist (List.take_sublist 40 _)

theorem length_candidateDomains (registrable : String → Option String) (hosts : List String) :
    (candidateDomains registrable hosts).length ≤ 40 := by
  rw [candidateDomains, List.length_map]
  exact List.length_take_le 40 _

/-! ### Asking about them -/

/-- The domains that are tracked. -/
def Store.trackedDomains (s : Store) : List String :=
  (s.list.filter fun c => c.kind = .domain).map fun c => c.host.toLower

/-- A slot of `out` as it is made. -/
def DomainCandidate.blank : DomainCandidate where
  domain := ""
  tracked := false
  fromHosts := []

/-- The loop of `handleDomainCandidates`: every domain is put down at once, and one that is not
tracked gets a thread that asks the registry. `answers` is what the registry says of the domain
at a place. -/
def candidatePlan (tracked : List String) (domains : List (String × List String))
    (answers : Nat → Except LookupError DomainResult) : FanOut.Plan DomainCandidate where
  size := domains.length
  blank := .blank
  first i :=
    match domains[i]? with
    | some p => { domain := p.1, tracked := p.1 ∈ tracked, fromHosts := p.2 }
    | none => .blank
  needs i :=
    match domains[i]? with
    | some p => p.1 ∉ tracked
    | none => false
  fill i slot := { slot with lookup := some ((answers i).mapError LookupError.msg) }

/-- The places of the semaphore. -/
def lookupSlots : Nat := 6

/-- The states of the lookups of a request. -/
def LookupRun (tracked : List String) (domains : List (String × List String))
    (answers : Nat → Except LookupError DomainResult) (steps : List FanOut.Action)
    (s : FanOut.State DomainCandidate) : Prop :=
  Transition.run (FanOut.step (candidatePlan tracked domains answers) lookupSlots)
    (candidatePlan tracked domains answers).initial steps = some s

/-- The domains the registry was asked about, in the order it was. -/
def domainsAsked (domains : List (String × List String)) (steps : List FanOut.Action) :
    List String :=
  (FanOut.worksOf steps).filterMap fun i => domains[i]?.map Prod.fst

theorem needs_candidatePlan {tracked : List String} {domains : List (String × List String)}
    {answers : Nat → Except LookupError DomainResult} {i : Nat} :
    (candidatePlan tracked domains answers).needs i = true ↔
      ∃ p, domains[i]? = some p ∧ p.1 ∉ tracked := by
  simp only [candidatePlan]
  cases domains[i]? <;> simp

/-- The response, where the registry says of a domain what it says whenever it is asked. -/
theorem result_candidatePlan (t : RouteTurn) (tracked : List String)
    (domains : List (String × List String)) (answers : Nat → Except LookupError DomainResult)
    (hanswers : ∀ i p, domains[i]? = some p → answers i = t.lookup p.1) :
    (candidatePlan tracked domains answers).result = domains.map fun p =>
      { domain := p.1
        tracked := p.1 ∈ tracked
        fromHosts := p.2
        lookup :=
          if p.1 ∈ tracked then none
          else some ((t.lookup p.1).mapError LookupError.msg) } := by
  refine List.ext_getElem? fun i => ?_
  simp only [FanOut.Plan.result, List.getElem?_map]
  by_cases hi : i < domains.length
  · have hdomain : domains[i]? = some domains[i] := List.getElem?_eq_getElem hi
    have hrange : (List.range (candidatePlan tracked domains answers).size)[i]? = some i := by
      simp [candidatePlan, hi]
    have hanswer := hanswers i domains[i] hdomain
    rw [hrange, hdomain]
    by_cases ht : domains[i].1 ∈ tracked
    · simp [FanOut.Plan.final, candidatePlan, hdomain, ht]
    · simp [FanOut.Plan.final, candidatePlan, hdomain, ht, hanswer]
  · have hdomain : domains[i]? = none := List.getElem?_eq_none (Nat.not_lt.mp hi)
    have hrange : (List.range (candidatePlan tracked domains answers).size)[i]? = none := by
      simp [candidatePlan, Nat.not_lt.mp hi]
    rw [hrange, hdomain]
    rfl

/-- A place of a domain is known by the domain. -/
theorem eq_of_domain_eq {domains : List (String × List String)}
    (hnodup : (domains.map Prod.fst).Nodup) {i j : Nat} {p q : String × List String}
    (hi : domains[i]? = some p) (hj : domains[j]? = some q) (h : p.1 = q.1) : i = j := by
  have hilt : i < domains.length := (List.getElem?_eq_some_iff.mp hi).1
  have hsame : (domains.map Prod.fst)[i]? = (domains.map Prod.fst)[j]? := by
    rw [List.getElem?_map, List.getElem?_map, hi, hj]
    exact congrArg some h
  exact (List.getElem?_inj (by simpa using hilt) hnodup).mp hsame

/-- No domain is asked about twice. -/
theorem nodup_domainsAsked {tracked : List String} {domains : List (String × List String)}
    {answers : Nat → Except LookupError DomainResult} {steps : List FanOut.Action}
    {s : FanOut.State DomainCandidate} (hnodup : (domains.map Prod.fst).Nodup)
    (hrun : LookupRun tracked domains answers steps s) : (domainsAsked domains steps).Nodup := by
  refine List.Nodup.filterMap ?_ (FanOut.nodup_worksOf hrun)
  intro i j d hi hj
  obtain ⟨p, hp, rfl⟩ := Option.map_eq_some_iff.mp (Option.mem_def.mp hi)
  obtain ⟨q, hq, hqp⟩ := Option.map_eq_some_iff.mp (Option.mem_def.mp hj)
  exact eq_of_domain_eq hnodup hp hq hqp.symm

theorem length_domainsAsked_le {tracked : List String} {domains : List (String × List String)}
    {answers : Nat → Except LookupError DomainResult} {steps : List FanOut.Action}
    {s : FanOut.State DomainCandidate} (hrun : LookupRun tracked domains answers steps s) :
    (domainsAsked domains steps).length ≤ domains.length :=
  (List.length_filterMap_le _ _).trans (FanOut.length_worksOf_le hrun)

/-- Only domains that were found and are not tracked are asked about. -/
theorem of_mem_domainsAsked {tracked : List String} {domains : List (String × List String)}
    {answers : Nat → Except LookupError DomainResult} {steps : List FanOut.Action}
    {s : FanOut.State DomainCandidate} {d : String}
    (hrun : LookupRun tracked domains answers steps s) (hd : d ∈ domainsAsked domains steps) :
    d ∉ tracked ∧ d ∈ domains.map Prod.fst := by
  obtain ⟨i, hi, hid⟩ := List.mem_filterMap.mp hd
  obtain ⟨p, hp, rfl⟩ := Option.map_eq_some_iff.mp hid
  obtain ⟨q, hq, hout⟩ := needs_candidatePlan.mp (FanOut.of_mem_worksOf hrun hi).2
  obtain rfl := Option.some.inj (hp.symm.trans hq)
  exact ⟨hout, List.mem_map_of_mem (List.mem_of_getElem? hp)⟩

/-- The domains of a request as its loop finds them. -/
def domainsOf (registrable : String → Option String) (hosts : List String) :
    List (String × List String) :=
  ((collapse registrable hosts).1.take 40).map fun d =>
    (d, ((collapse registrable hosts).2 d).getD [])

/-- A domain that was found has a host behind it. -/
theorem exists_host_of_mem {registrable : String → Option String} {hosts : List String}
    {d : String} (hd : d ∈ (candidateDomains registrable hosts).map Prod.fst) :
    ∃ h ∈ hosts, registrable h = some d := by
  obtain ⟨p, hp, rfl⟩ := List.mem_map.mp hd
  obtain ⟨d, htake, rfl⟩ := List.mem_map.mp hp
  have hfound := List.mem_eraseDups.mp (List.mem_of_mem_take htake)
  obtain ⟨q, hq, rfl⟩ := List.mem_map.mp hfound
  obtain ⟨h, hmem, hreg⟩ := List.mem_filterMap.mp hq
  obtain ⟨e, he, rfl⟩ := Option.map_eq_some_iff.mp hreg
  exact ⟨h, hmem, he⟩

/-- Whatever order the threads of a request take their steps in: at most six are asking a registry
at a time; at most forty domains are asked about, none of them twice and none that is tracked,
each for a host of the request; the response is that of asking one after the other; and every
request comes to its response. -/
theorem candidates_any_order (t : RouteTurn) (s : Store) (hosts : List String)
    (answers : Nat → Except LookupError DomainResult) (steps : List FanOut.Action)
    (st : FanOut.State DomainCandidate) (hhosts : hosts ≠ [])
    (hanswers : ∀ i p, (domainsOf t.registrable hosts)[i]? = some p → answers i = t.lookup p.1)
    (hrun : LookupRun s.trackedDomains (domainsOf t.registrable hosts) answers steps st) :
    FanOut.inFlight (candidatePlan s.trackedDomains (domainsOf t.registrable hosts) answers) st
      ≤ 6 ∧
    (domainsAsked (domainsOf t.registrable hosts) steps).length ≤ 40 ∧
    (domainsAsked (domainsOf t.registrable hosts) steps).Nodup ∧
    (∀ d ∈ domainsAsked (domainsOf t.registrable hosts) steps,
      d ∉ s.trackedDomains ∧ ∃ h ∈ hosts, t.registrable h = some d) ∧
    (∀ out, st.returned = some out →
      handleDomainCandidates t s (some hosts) = (s, writeJSON 200 (.candidates out))) ∧
    (∃ more st', LookupRun s.trackedDomains (domainsOf t.registrable hosts) answers
      (steps ++ more) st' ∧ st'.returned.isSome) := by
  have hloop : domainsOf t.registrable hosts = candidateDomains t.registrable hosts :=
    collapse_eq t.registrable hosts
  rw [hloop] at hanswers hrun ⊢
  refine ⟨FanOut.inFlight_le hrun, (length_domainsAsked_le hrun).trans
    (length_candidateDomains _ _), nodup_domainsAsked (nodup_candidateDomains _ _) hrun,
    fun d hd => ?_, fun out hout => ?_, ?_⟩
  · obtain ⟨hout, hfound⟩ := of_mem_domainsAsked hrun hd
    exact ⟨hout, exists_host_of_mem hfound⟩
  · have hresult := result_candidatePlan t s.trackedDomains _ answers hanswers
    rw [FanOut.returned_eq hrun hout, hresult]
    cases hosts with
    | nil => exact absurd rfl hhosts
    | cons host hosts => rfl
  · obtain ⟨more, st', hmore, hret⟩ := FanOut.exists_run_returned (by decide) hrun
    refine ⟨more, st', ?_, by rw [hret]; rfl⟩
    rw [LookupRun, Transition.run_append, hrun, Option.bind_some, hmore]

/-- A turn whose registry knows nothing, and under which every name but one is a domain. -/
def demoLookups : RouteTurn where
  webAuthn := .error "unknown host"
  qr _ := .error "no image"
  vault := .smooth demoFresh 0
  sweep := ⟨0, fun _ => .error "refused", fun _ _ => .error "refused", fun _ => .error "refused"⟩
  scan _ _ _ := .error "refused"
  lookup _ := .error ⟨true, "domain is not registered"⟩
  registrable h := if h = "www.a.test" then some "a.test" else some h

/-- Three hosts under two domains. -/
def demoHosts : List String := ["www.a.test", "b.test", "a.test"]

/-- The second domain is asked about before the first. -/
def demoLookupSteps : List FanOut.Action :=
  [.start, .start, .acquire 1, .acquire 0, .work 1, .work 0, .release 0, .release 1, .signOff 0,
    .signOff 1, .collect]

theorem candidates_any_order_demo :
    ∃ st, LookupRun (Store.trackedDomains {}) (domainsOf demoLookups.registrable demoHosts)
        (fun _ => demoLookups.lookup "") demoLookupSteps st ∧ st.returned.isSome ∧
      domainsAsked (domainsOf demoLookups.registrable demoHosts) demoLookupSteps
        = ["b.test", "a.test"] ∧
      (domainsAsked (domainsOf demoLookups.registrable demoHosts) demoLookupSteps).length ≤ 40 := by
  have hrun : ∃ st, LookupRun (Store.trackedDomains {})
      (domainsOf demoLookups.registrable demoHosts) (fun _ => demoLookups.lookup "")
      demoLookupSteps st ∧ st.returned.isSome := ⟨_, rfl, rfl⟩
  obtain ⟨st, hrun, hret⟩ := hrun
  exact ⟨st, hrun, hret, by decide, (candidates_any_order demoLookups {} demoHosts _
    demoLookupSteps st (by decide) (fun _ _ _ => rfl) hrun).2.1⟩

end CertGuard
