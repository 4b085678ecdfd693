import CertGuard.Scheduler.Rescan

/-!
# What answers for names that are gone

A scan replaces the names of an endpoint. What answers for them is looked at again only if
there is more than one, so that a certificate that comes to cover one name or none leaves
the old answers in place, and with them a name that is counted as a problem.

## Main definitions

* `DescribesNames` — what is stored about names is about names of the entry
* `lastRecorded` — the last scan of a sweep that was recorded in an entry
* `RefreshesNames` — that scan found more than one name, or all that are stored

## Main results

* `coverage_current_iff` — what is stored stays about names of the entry exactly if the
  sweeps of a run do this
* `stale_coverage` — and a run that leaves a name that is gone
-/

namespace CertGuard

open Transition

/-- A sweep is never refused. -/
def sweepStep (s : Store) (env : SweepEnv) : Option Store := some (rescan env s)

/-- Every name something is stored about is a name of the entry. -/
def DescribesNames (s : Store) (id : Int) : Prop :=
  ∀ c, s.getByID id = some c → ∀ n ∈ c.coverage, n.name ∈ c.dnsNames

/-- The entry has a port, as endpoints have. -/
def Store.HasPort (s : Store) (id : Int) : Prop :=
  ∃ r, s.certs.get? id = some r ∧ r.port ≠ 0

/-- A scan is recorded in an entry. -/
def recordsIn (env : SweepEnv) (id : Int) (t : Store × Cert) : Bool :=
  match env.scan t.2 with
  | .error _ => false
  | .ok served => ((t.2.scanned served).find t.1).any fun e => e.id = id

/-- The last scan of a sweep that is recorded in an entry. -/
def lastRecorded (env : SweepEnv) (id : Int) (s : Store) : Option (Store × Cert) :=
  ((turns (rescanEndpoint env) s s.endpointsForRescan).filter (recordsIn env id)).getLast?

/-- The names a scan finds, as they are stored. -/
def SweepEnv.names (env : SweepEnv) (c : Cert) : List GoString :=
  match env.scan c with
  | .error _ => []
  | .ok served => served.dnsNames.map GoString.sanitize

/-- The scan of an entry finds more than one name, or every name something is stored about. -/
def FindsNames (env : SweepEnv) (id : Int) (t : Store × Cert) : Prop :=
  1 < (env.names t.2).length ∨
    ∀ c, t.1.getByID id = some c → ∀ n ∈ c.coverage, n.name ∈ env.names t.2

/-- The last scan of a sweep that is recorded in an entry does so. -/
def RefreshesNames (id : Int) (s : Store) (env : SweepEnv) : Prop :=
  ∀ t, lastRecorded env id s = some t → FindsNames env id t

variable {s : Store} {env : SweepEnv} {id : Int} {c : Cert} {r : CertRow} {cs : List Cert}

/-! ### Loops -/

theorem turns_append {body : Store → Cert → Store} :
    turns body s (cs ++ [c]) = turns body s cs ++ [(cs.foldl body s, c)] := by
  induction cs generalizing s with
  | nil => rfl
  | cons c' cs ih =>
    simp only [List.cons_append, turns, ih, List.foldl_cons]

/-! ### Names after a scan -/

theorem sanitize_sanitize (x : GoString) : x.sanitize.sanitize = x.sanitize :=
  (GoString.valid_ofList x.chars).sanitize_eq

/-- What is checked are the names of the entry. -/
theorem names_coverageCheck {reach : GoString → Except String Served} :
    (coverageCheck reach c).map CoveredName.name = c.dnsNames := by
  rw [coverageCheck, List.map_map]
  conv_rhs => rw [← List.map_id c.dnsNames]
  refine List.map_congr_left fun name _ => ?_
  simp only [Function.comp_apply, id]
  split_ifs
  · rfl
  · cases reach name <;> rfl

/-- A row whose names are checked stores nothing about others, and one whose names are not
stores what it stored. -/
theorem coverRow_describes (names : List GoString) (hnames : r.dnsNames = marshalStrings names) :
    (∀ n ∈ unmarshalCoverage (coverRow env id r).coverageJson,
        n.name ∈ unmarshalStrings (coverRow env id r).dnsNames) ↔
      1 < names.length ∨
        ∀ n ∈ unmarshalCoverage r.coverageJson, n.name ∈ names.map GoString.sanitize := by
  have hread : (scanRowValues id r).dnsNames = names.map GoString.sanitize := by
    rw [scanRowValues, hnames, unmarshalStrings_marshalStrings]
  have hlength : (scanRowValues id r).dnsNames.length = names.length := by
    rw [hread, List.length_map]
  unfold coverRow
  simp only [hlength]
  -- with one name or none the coverage is left from before
  split_ifs with hmany
  · refine iff_of_true (fun n hn => ?_) (Or.inl hmany)
    simp only [unmarshalCoverage_marshalCoverage] at hn
    obtain ⟨m, hm, rfl⟩ := List.mem_map.mp hn
    have hmem : m.name ∈ names.map GoString.sanitize := by
      rw [← hread, ← names_coverageCheck]
      exact List.mem_map_of_mem hm
    obtain ⟨name, -, hname⟩ := List.mem_map.mp hmem
    have hsame : m.sanitize.name = m.name := by
      rw [CoveredName.sanitize, ← hname, sanitize_sanitize]
    rw [hnames, unmarshalStrings_marshalStrings, hsame]
    exact hmem
  · rw [hnames, unmarshalStrings_marshalStrings]
    exact ⟨Or.inr, fun h => h.resolve_left hmany⟩

theorem describesNames_iff (hrow : s.certs.get? id = some r) : DescribesNames s id ↔
    ∀ n ∈ unmarshalCoverage r.coverageJson, n.name ∈ unmarshalStrings r.dnsNames := by
  simp only [DescribesNames, Store.getByID, hrow, Option.map_some, Option.some.injEq,
    forall_eq', scanRowValues]

/-- An entry in which a scan is recorded stores nothing about other names afterwards, exactly
if the scan finds more than one name or those it stores something about. -/
theorem describes_recorded (hrow : s.certs.get? id = some r)
    (hrecords : recordsIn env id (s, c) = true) :
    DescribesNames (rescanEndpoint env s c) id ↔ FindsNames env id (s, c) := by
  unfold recordsIn at hrecords
  split at hrecords
  · exact absurd hrecords (by decide)
  · next served hscan =>
    obtain ⟨e, hfind, hid⟩ := (Option.any_eq_true _ _).mp hrecords
    have hafter : (rescanEndpoint env s c).certs.get? id = _ :=
      get?_certs_rescanEndpoint_some hscan hfind
    rw [hrow, Option.map_some, if_pos (of_decide_eq_true hid).symm] at hafter
    have hnames : env.names c = served.dnsNames.map GoString.sanitize := by
      simp only [SweepEnv.names, hscan]
    rw [describesNames_iff hafter, coverRow_describes served.dnsNames rfl, FindsNames,
      hnames, List.length_map]
    simp only [Store.getByID, hrow, Option.map_some, Option.some.injEq, forall_eq', scanRowValues]
    rfl

/-- Another entry stores what it stored. -/
theorem describes_not_recorded (hrow : s.certs.get? id = some r)
    (hrecords : recordsIn env id (s, c) = false) :
    DescribesNames (rescanEndpoint env s c) id ↔ DescribesNames s id := by
  unfold recordsIn at hrecords
  split at hrecords
  · next msg hscan =>
    have hafter : (rescanEndpoint env s c).certs.get? id = _ :=
      get?_certs_rescanEndpoint_error hscan
    rw [hrow, Option.map_some] at hafter
    rw [describesNames_iff hafter, describesNames_iff hrow]
    split_ifs <;> rfl
  · next served hscan =>
    cases hfind : (c.scanned served).find s with
    | none =>
      have hafter : (rescanEndpoint env s c).certs.get? id = _ :=
        get?_certs_rescanEndpoint_none hscan hfind
      rw [if_neg (Table.ne_nextKey hrow), hrow] at hafter
      rw [describesNames_iff hafter, describesNames_iff hrow]
    | some e =>
      rw [hfind, Option.any_some] at hrecords
      -- the scan was recorded in another row
      have hid : ¬ id = e.id := fun hid => of_decide_eq_false hrecords hid.symm
      have hafter : (rescanEndpoint env s c).certs.get? id = _ :=
        get?_certs_rescanEndpoint_some hscan hfind
      rw [hrow, Option.map_some, if_neg hid] at hafter
      rw [describesNames_iff hafter, describesNames_iff hrow]

theorem hasPort_rescanEndpoint (h : s.HasPort id) : (rescanEndpoint env s c).HasPort id := by
  obtain ⟨r, hrow, hport⟩ := h
  obtain ⟨r', hrow', hplace⟩ := place_rescanEndpoint env c hrow
  have hsame : r'.port = r.port := congrArg (fun p => p.2.1) hplace
  exact ⟨r', hrow', hsame ▸ hport⟩

theorem hasPort_scans (env : SweepEnv) (cs : List Cert) (h : s.HasPort id) :
    (cs.foldl (rescanEndpoint env) s).HasPort id :=
  List.foldlRecOn (motive := fun s => Store.HasPort s id) cs _ h
    fun _ h _ _ => hasPort_rescanEndpoint h

/-- After the scans of a sweep an entry stores nothing about other names, exactly if the last
one recorded in it finds more than one name or those it stores something about. -/
theorem describes_scans (hport : s.HasPort id) (hbefore : DescribesNames s id) :
    DescribesNames (cs.foldl (rescanEndpoint env) s) id ↔
      ∀ t, ((turns (rescanEndpoint env) s cs).filter (recordsIn env id)).getLast? = some t →
        FindsNames env id t := by
  induction cs using List.reverseRecOn with
  | nil => simpa [turns] using hbefore
  | append_singleton cs c ih =>
    obtain ⟨r, hrow, -⟩ := hasPort_scans env cs hport
    rw [List.foldl_append, turns_append, List.filter_append, List.foldl_cons, List.foldl_nil]
    cases hrecords : recordsIn env id (cs.foldl (rescanEndpoint env) s, c) with
    | true =>
      rw [describes_recorded hrow hrecords]
      simp [hrecords]
    | false =>
      rw [describes_not_recorded hrow hrecords, ih]
      simp [hrecords]

/-! ### Names after a domain lookup -/

/-- A domain lookup is recorded in an entry without a port. -/
theorem row_rescanDomain (env : SweepEnv) (c : Cert) (hrow : s.certs.get? id = some r)
    (hport : r.port ≠ 0) :
    ∃ r', (rescanDomain env s c).certs.get? id = some r' ∧ r'.port = r.port ∧
      r'.coverageJson = r.coverageJson ∧ r'.dnsNames = r.dnsNames := by
  unfold rescanDomain
  split
  · rw [get?_certs_touchScanError, hrow, Option.map_some]
    refine ⟨_, rfl, ?_⟩
    split_ifs <;> exact ⟨rfl, rfl, rfl⟩
  · next res _ =>
    have hkept := Upsert.get?_write_of_address_ne (.domain c.name res) env.clock hrow
      fun haddress => hport haddress.2
    exact ⟨r, hkept, rfl, rfl, rfl⟩

/-- The lookups of a sweep leave an endpoint what it stores. -/
theorem describes_lookups (hport : s.HasPort id) :
    (cs.foldl (rescanDomain env) s).HasPort id ∧
      (DescribesNames (cs.foldl (rescanDomain env) s) id ↔ DescribesNames s id) := by
  induction cs generalizing s with
  | nil => exact ⟨hport, Iff.rfl⟩
  | cons c cs ih =>
    obtain ⟨r, hrow, hne⟩ := hport
    obtain ⟨r', hrow', hport', hcoverage, hnames⟩ := row_rescanDomain env c hrow hne
    obtain ⟨hkept, hsame⟩ := ih ⟨r', hrow', hport' ▸ hne⟩
    refine ⟨hkept, hsame.trans ?_⟩
    rw [describesNames_iff hrow', describesNames_iff hrow, hcoverage, hnames]

/-- For every entry with a port and every sequence of sweeps, whatever comes of their scans and
lookups: after each of them what the entry stores about names is about names it has, exactly
if in each of them the last scan recorded in the entry finds more than one name, or every
name something is stored about. -/
theorem coverage_current_iff (s : Store) (id : Int) (sweeps : List SweepEnv)
    (hport : s.HasPort id) (hstart : DescribesNames s id) :
    Always sweepStep (fun s => DescribesNames s id) s sweeps ↔
      Meets sweepStep (RefreshesNames id) s sweeps := by
  apply always_iff_meets_of_inv (fun s => Store.HasPort s id) hport hstart
  · rintro s env s' hport - hstep -
    obtain rfl := Option.some.inj hstep
    exact (describes_lookups (hasPort_scans env _ hport)).1
  · intro s env s' hport hbefore hstep
    obtain rfl := Option.some.inj hstep
    exact (describes_lookups (hasPort_scans env _ hport)).2.trans (describes_scans hport hbefore)
  · intro s env hrefused
    exact absurd hrefused (by simp [sweepStep])

/-- An endpoint whose certificate covers two names. -/
def demoEndpoint : Store where
  certs := Table.empty.insert
    { name := "web", kind := .endpoint, host := "a", port := 443, sha256 := "aa"
      dnsNames := marshalStrings [GoString.ofString "a", GoString.ofString "b"]
      expiresAt := [], createdAt := [] }

/-- A sweep finds a certificate for some names, and none of them answers. -/
def demoSweep (names : List String) : SweepEnv where
  clock := 0
  scan _ := .ok { sha256 := "aa", dnsNames := names.map GoString.ofString }
  reach _ _ := .error "no such host"
  lookup _ := .error "no such domain"

/-- Nothing has been looked at yet. -/
theorem demoEndpoint_describes : DescribesNames demoEndpoint 1 := by
  intro c hc n hn
  obtain rfl := Option.some.inj hc
  have hnothing : (unmarshalCoverage []) = [] := by decide
  change n ∈ unmarshalCoverage [] at hn
  rw [hnothing] at hn
  exact absurd hn List.not_mem_nil

theorem demoEndpoint_hasPort : demoEndpoint.HasPort 1 := ⟨_, rfl, by decide⟩

theorem coverage_current_demo :
    Always sweepStep (fun s => DescribesNames s 1) demoEndpoint [demoSweep ["a", "b"]] ↔
      Meets sweepStep (RefreshesNames 1) demoEndpoint [demoSweep ["a", "b"]] :=
  coverage_current_iff demoEndpoint 1 _ demoEndpoint_hasPort demoEndpoint_describes

/-- The certificate loses a name, which is still said not to answer. -/
theorem stale_coverage : ¬ ∀ s id sweeps, Store.HasPort s id → DescribesNames s id →
    Always sweepStep (fun s => DescribesNames s id) s sweeps := by
  intro hall
  have hend : (run sweepStep demoEndpoint [demoSweep ["a", "b"], demoSweep ["a"]]).map (fun s =>
      (s.getByID 1).map fun c => (c.coverage.map CoveredName.name, c.dnsNames)) = some (some
        ([GoString.ofString "a", GoString.ofString "b"], [GoString.ofString "a"])) := by
    decide +kernel
  obtain ⟨s, hrun, hs⟩ := Option.map_eq_some_iff.mp hend
  obtain ⟨c, hc, hnames⟩ := Option.map_eq_some_iff.mp hs
  obtain ⟨hcoverage, hdns⟩ := Prod.mk.inj hnames
  have hdescribes := hall demoEndpoint 1 [demoSweep ["a", "b"], demoSweep ["a"]]
    demoEndpoint_hasPort demoEndpoint_describes _ s (List.prefix_refl _) hrun
  have hmem : GoString.ofString "b" ∈ c.coverage.map CoveredName.name := by
    rw [hcoverage]
    decide
  obtain ⟨n, hn, hname⟩ := List.mem_map.mp hmem
  have hcovered := hdescribes c hc n hn
  rw [hname, hdns] at hcovered
  exact absurd hcovered (by decide)

/-! ### What counts as a problem -/

/-- What `handlePublicStatus` counts as a problem. -/
def Cert.isProblem (c : Cert) : Bool :=
  c.lastError ≠ "" || c.coverage.any fun n => n.status = .unreachable

/-- An entry whose last check went well is a problem for a name of its own only, as long as
nothing is stored about others. -/
theorem problem_has_name (h : DescribesNames s id) (hc : s.getByID id = some c)
    (hproblem : c.isProblem = true) (hchecked : c.lastError = "") :
    ∃ n ∈ c.coverage, n.status = .unreachable ∧ n.name ∈ c.dnsNames := by
  simp only [Cert.isProblem, hchecked, ne_eq, not_true, decide_false, Bool.false_or,
    List.any_eq_true, decide_eq_true_eq] at hproblem
  obtain ⟨n, hn, hstatus⟩ := hproblem
  exact ⟨n, hn, hstatus, h c hc n hn⟩

end CertGuard
