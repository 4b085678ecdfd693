import CertGuard.Scheduler.Unchanged

/-!
# What a channel receives over a run

Exactly which alerts about an entry a channel gets, over any run of passes and
scans.

## Main results

* `exact_delivery` — an unchanging entry, everything taken and marked: one alert
  for each rung a pass finds it on, in decreasing order
* `owed_delivered` — what a channel failed to take it gets later, as long as no
  other channel took it meanwhile
* `lost_to_other_channel` — and a run in which another channel did
* `same_alert_after_replacement` — an alert repeats only after a replacement
* `repeated_after_return` — and a run in which it does
-/

namespace CertGuard

open Transition Escalation

variable {a : Alert} {ch : Channel} {id : Int} {s : Store} {r : CertRow}
variable {ops : List Op} {env : PassEnv} {c : Cert} {channels : List Channel}

/-! ### Looks of a run -/

theorem mem_looks {l : Look Int} (h : l ∈ looks a ch id s ops) :
    ∃ env ∈ passes ops, ∃ c, l = look env s.allEnabledChannels a ch c := by
  induction ops generalizing s with
  | nil => simp [looks] at h
  | cons op ops ih =>
    have hchannels : (opStep s op).1.allEnabledChannels = s.allEnabledChannels := by
      simp only [Store.allEnabledChannels, opStep_channels]
    rw [looks, List.mem_append] at h
    rcases h with h | h
    · cases op with
      | scan now name res => simp [lookAt] at h
      | pass env =>
        obtain ⟨r, -, rfl⟩ := Option.map_eq_some_iff.mp (Option.mem_toList.mp h)
        exact ⟨env, by simp [passes], _, rfl⟩
    · obtain ⟨env, henv, c, hc⟩ := ih h
      refine ⟨env, ?_, c, hchannels ▸ hc⟩
      cases op with
      | pass env' => exact List.mem_cons_of_mem _ henv
      | scan now name res => exact henv

/-- What the channel gets is noted if every mark is stored. -/
theorem noted_looks (hmarks : ∀ env ∈ passes ops, ∀ a id, env.marks a id = true) :
    Noted (looks a ch id s ops) := by
  intro l hl hmine
  obtain ⟨env, henv, c, rfl⟩ := mem_looks hl
  simp only [look, decide_eq_true_eq] at hmine ⊢
  exact ⟨List.ne_nil_of_mem hmine, hmarks env henv a c.id⟩

/-- Whether a channel subscribes to a rung and is one of those notified. -/
def wants (channels : List Channel) (ch : Channel) (r : WithTop Int) : Bool :=
  ch ∈ channels && ch.wantsThreshold (r.untopD (-1))

/-- When everything sent is taken, a channel gets what it subscribes to. -/
theorem mine_looks (hsend : ∀ env ∈ passes ops, ∀ ch m, env.send ch m = true) {l : Look Int}
    (hl : l ∈ looks a ch id s ops) : l.mine = wants s.allEnabledChannels ch l.rung := by
  obtain ⟨env, henv, c, rfl⟩ := mem_looks hl
  have hbucket : (a.rung c env.now).untopD (-1) = a.current c env.now := by
    unfold Alert.rung
    split_ifs with h
    · exact h.symm
    · rfl
  simp [look, wants, takers, deliver, hsend env henv, hbucket]

theorem mem_rungsTo_iff {out : List Delivery} {th : Int} :
    th ∈ rungsTo a ch id out ↔
      (th : WithTop Int) ∈ (rungsTo a ch id out).map fun th : Int => (th : WithTop Int) :=
  (List.mem_map_of_injective WithTop.coe_injective).symm

theorem pairwise_rungsTo_iff {out : List Delivery} : (rungsTo a ch id out).Pairwise (· > ·) ↔
    ((rungsTo a ch id out).map fun th : Int => (th : WithTop Int)).Pairwise (· > ·) := by
  rw [List.pairwise_map]
  simp only [gt_iff_lt, WithTop.coe_lt_coe]

/-! ### Nothing changes and nothing fails -/

/-- Take an entry that was never alerted on, whose scans keep finding the same
certificate and chain, and passes in order of time that everybody takes and whose
marks are stored. Then a channel gets one alert for each rung it subscribes to that
some pass finds the entry on, no other alert, and each more urgent than the one
before. -/
theorem exact_delivery (s : Store) (id : Int) (c : Cert) (ops : List Op) (a : Alert) (ch : Channel)
    (hadded : s.getByID id = some c) (hactive : c.active = true) (hfresh : a.last c = 0)
    (hall : AllSame c ops)
    (htimes : (passes ops).Pairwise fun env env' => env.now ≤ env'.now)
    (hsend : ∀ env ∈ passes ops, ∀ ch m, env.send ch m = true)
    (hmarks : ∀ env ∈ passes ops, ∀ a id, env.marks a id = true) :
    (rungsTo a ch id (runOut opStep s ops).2).Pairwise (· > ·) ∧
      ∀ th, th ∈ rungsTo a ch id (runOut opStep s ops).2 ↔
        (ch ∈ s.allEnabledChannels ∧ ch.wantsThreshold th = true) ∧ 0 < th ∧
          ∃ env ∈ passes ops, a.current c env.now = th := by
  obtain ⟨r, hrow, rfl⟩ := Option.map_eq_some_iff.mp hadded
  have hr : Unchanged (scanRowValues id r) r := Unchanged.refl hactive
  have hnoted : Noted (looks a ch id s ops) := noted_looks hmarks
  have hrungs := map_rung_looks a ch hrow hr hall
  have hout := rungsTo_runOut ch hrow hactive (meetsOut_of_allSame (a := a) hrow hr hall)
  rw [← Alert.last_scanRowValues a id, hfresh, ofCounter_zero] at hout
  refine ⟨?_, fun th => ?_⟩
  · rw [pairwise_rungsTo_iff, hout]
    exact pairwise_received hnoted
  · -- times only grow, so the rungs found only go down
    have hdown : (⊤ :: (looks a ch id s ops).map Look.rung).Pairwise (· ≥ ·) := by
      refine List.pairwise_cons.mpr ⟨fun _ _ => le_top, ?_⟩
      rw [hrungs, List.pairwise_map]
      exact htimes.imp fun hle => Alert.rung_antitone a _ hle
    rw [mem_rungsTo_iff, hout, mem_received_iff hnoted hdown fun l hl => mine_looks hsend hl,
      hrungs, List.mem_map]
    simp only [wants, Bool.and_eq_true, decide_eq_true_eq, WithTop.untopD_coe, WithTop.coe_lt_top,
      and_true, Alert.rung_eq_coe_iff]
    -- both sides say the same, with the conjuncts in another order
    constructor
    · rintro ⟨hwants, env, henv, hpos, hcurrent⟩
      exact ⟨hwants, hpos, env, henv, hcurrent⟩
    · rintro ⟨hwants, hpos, env, henv, hcurrent⟩
      exact ⟨hwants, env, henv, hpos, hcurrent⟩

/-- Two passes with a scan of the same certificate in between. -/
def demoRun : List Op :=
  [.pass (demoPass 0 []), .scan demoDay "" demoFirst, .pass (demoPass 18 [])]

theorem demoRun_same : AllSame demoCert demoRun := by
  intro now name res hmem _ _
  simp only [demoRun, List.mem_cons, reduceCtorEq, Op.scan.injEq, List.not_mem_nil, or_false,
    false_or] at hmem
  obtain ⟨rfl, rfl, rfl⟩ := hmem
  exact ⟨by decide, by decide, by decide, by decide, by decide, by decide⟩

theorem demoRun_smooth : ∀ env ∈ passes demoRun,
    (∀ ch m, env.send ch m = true) ∧ ∀ a id, env.marks a id = true := by
  intro env henv
  have henv : env = demoPass 0 [] ∨ env = demoPass 18 [] := by simpa [passes, demoRun] using henv
  rcases henv with rfl | rfl <;> exact ⟨fun _ _ => rfl, fun _ _ => rfl⟩

/-- With twenty days left and then two, the rungs 30 and 3 are delivered and 7 is not. -/
theorem exact_delivery_demo :
    (rungsTo .leaf (demoChannel 2) 1 (runOut opStep demoScanned demoRun).2).Pairwise (· > ·) ∧
      3 ∈ rungsTo .leaf (demoChannel 2) 1 (runOut opStep demoScanned demoRun).2 ∧
      7 ∉ rungsTo .leaf (demoChannel 2) 1 (runOut opStep demoScanned demoRun).2 := by
  obtain ⟨hdown, hmem⟩ := exact_delivery demoScanned 1 demoCert demoRun .leaf
    (demoChannel 2) (by decide) (by decide) (by decide) demoRun_same (by decide)
    (fun env h => (demoRun_smooth env h).1) (fun env h => (demoRun_smooth env h).2)
  refine ⟨hdown, (hmem 3).mpr ⟨by decide, by decide, by decide⟩, fun h => ?_⟩
  exact absurd ((hmem 7).mp h).2.2 (by decide)

/-! ### Failures -/

/-- In no pass that stored its mark did a channel other than `ch` take the alert of an
entry at a threshold. -/
def NoOtherTook (a : Alert) (ch : Channel) (id th : Int) (s : Store) : Op → Prop
  | .pass env =>
    env.marks a id = true → ∀ ch', ch' ≠ ch → th ∉ rungsTo a ch' id (notifyPass env s).2
  | .scan .. => True

/-- A pass in which a channel did not take what was due leaves it due, unless another
channel took it. -/
theorem counter_passRow_of_owed (hrow : s.certs.get? id = some r) (hactive : r.active = true)
    {th : Int} (hdue : a.due (scanRowValues id r) env.now = th)
    (hnot : ch ∉ took env s.allEnabledChannels a (scanRowValues id r))
    (hother : NoOtherTook a ch id th s (.pass env)) :
    a.counter (passRow env s.allEnabledChannels (scanRowValues id r) r) = a.counter r := by
  rw [counter_passRow, if_neg]
  rintro ⟨htook, hmark⟩
  obtain ⟨ch', hch'⟩ := List.exists_mem_of_ne_nil _ htook
  have hne : ch' ≠ ch := fun h => hnot (h ▸ hch')
  refine hother hmark ch' hne ?_
  rw [rungsTo_notifyPass hrow hactive, if_pos hch', hdue]
  exact List.mem_singleton_self th

/-- An unchanged entry whose bucket is ahead of its counter is due at its bucket. -/
theorem due_of_unchanged (id : Int) {th now : Int} (hr : Unchanged c r) (hpos : 0 < th)
    (hahead : (th : WithTop Int) < ofCounter (a.counter r)) (hcurrent : a.current c now = th) :
    a.due (scanRowValues id r) now = th := by
  have hrung : a.rung (scanRowValues id r) now = (th : WithTop Int) :=
    Alert.rung_eq_coe_iff.mpr ⟨hpos, hr.current_eq.trans hcurrent⟩
  have hdue : 0 < a.due (scanRowValues id r) now := by
    rw [Alert.due_pos_iff, hrung, Alert.last_scanRowValues]
    exact hahead
  rw [Alert.due_eq_current hdue, hr.current_eq, hcurrent]

/-- While an entry stays in a bucket it is due for, a channel that subscribes to it
is alerted at the latest by a pass whose message it takes, unless another channel
took the alert before. -/
theorem owed_run {th : Int} {last : PassEnv} (hrow : s.certs.get? id = some r)
    (hr : Unchanged c r) (hpos : 0 < th) (hahead : (th : WithTop Int) < ofCounter (a.counter r))
    (hall : AllSame c ops) (hbucket : ∀ env ∈ passes ops, a.current c env.now = th)
    (hlast : a.current c last.now = th) (hch : ch ∈ s.allEnabledChannels)
    (hwants : ch.wantsThreshold th = true)
    (hother : MeetsOut opStep (NoOtherTook a ch id th) s ops)
    (hsend : ∀ c', (runOut opStep s ops).1.getByID id = some c' →
      last.send ch (a.message c' th last.now) = true) :
    th ∈ rungsTo a ch id (runOut opStep s (ops ++ [.pass last])).2 := by
  induction ops generalizing s r with
  | nil =>
    have hdue := due_of_unchanged id hr hpos hahead hlast
    have htake : last.send ch (a.message (scanRowValues id r) th last.now) = true :=
      hsend _ (by simp [Store.getByID, hrow])
    have htook : ch ∈ took last s.allEnabledChannels a (scanRowValues id r) := by
      rw [took, hdue, if_pos hpos]
      exact List.mem_filter.mpr ⟨hch, by simp [hwants, htake]⟩
    simp only [List.nil_append, runOut_cons_snd, runOut_nil, List.append_nil, opStep]
    rw [rungsTo_notifyPass hrow hr.active, if_pos htook, hdue]
    exact List.mem_singleton_self th
  | cons op ops ih =>
    obtain ⟨hop, hops⟩ := meetsOut_cons.mp hother
    have hchannels : ch ∈ (opStep s op).1.allEnabledChannels := by
      simpa only [Store.allEnabledChannels, opStep_channels] using hch
    have hrow' := get?_certs_opStep op hrow
    have hr' := hr.opRow hrow hall
    rw [List.cons_append, runOut_cons_snd, rungsTo_append, List.mem_append]
    cases op with
    | scan now name res =>
      -- a scan that finds the same leaves the counter
      right
      refine ih hrow' hr' ?_ hall.tail hbucket hchannels hops hsend
      rwa [counter_opRow_scan hrow (not_replaces_of_same hrow hr hall)]
    | pass env =>
      -- either the channel takes the alert in this pass, or it is still owed after it
      have hcurrent : a.current c env.now = th := hbucket env (by simp [passes])
      have hdue := due_of_unchanged id hr hpos hahead hcurrent
      by_cases htook : ch ∈ took env s.allEnabledChannels a (scanRowValues id r)
      · left
        rw [opStep, rungsTo_notifyPass hrow hr.active, if_pos htook, hdue]
        exact List.mem_singleton_self th
      · right
        refine ih hrow' hr' ?_ hall.tail (fun env' h => hbucket env' (List.mem_cons_of_mem _ h))
          hchannels hops hsend
        rw [opRow, if_pos hr.active, counter_passRow_of_owed hrow hr.active hdue htook hop]
        exact hahead

/-- Take a pass in which a channel did not take the alert an entry was due for, and a
later pass that still finds the entry on that rung, with the same certificate and
chain, and whose message the channel takes. As long as no other channel took the
alert meanwhile, the channel gets it after the first of the two passes. -/
theorem owed_delivered (s : Store) (id : Int) (c : Cert) (a : Alert) (ch : Channel) (th : Int)
    (first last : PassEnv) (between : List Op)
    (hentry : s.getByID id = some c) (hactive : c.active = true)
    (hch : ch ∈ s.allEnabledChannels) (hwants : ch.wantsThreshold th = true)
    (hdue : a.due c first.now = th) (hpos : 0 < th)
    (hfail : first.send ch (a.message c th first.now) = false)
    (hall : AllSame c between)
    (htimes : (first :: passes between ++ [last]).Pairwise fun env env' => env.now ≤ env'.now)
    (hlast : a.current c last.now = th)
    (hsend : ∀ c', (runOut opStep s (.pass first :: between)).1.getByID id = some c' →
      last.send ch (a.message c' th last.now) = true)
    (hother : MeetsOut opStep (NoOtherTook a ch id th) s (.pass first :: between)) :
    th ∈ rungsTo a ch id
      (runOut opStep (opStep s (.pass first)).1 (between ++ [.pass last])).2 := by
  obtain ⟨r, hrow, rfl⟩ := Option.map_eq_some_iff.mp hentry
  have hr : Unchanged (scanRowValues id r) r := Unchanged.refl hactive
  have hduepos : 0 < a.due (scanRowValues id r) first.now := by rwa [hdue]
  have hcurrent : a.current (scanRowValues id r) first.now = th := by
    rw [← Alert.due_eq_current hduepos, hdue]
  have hrung : ∀ {now}, a.current (scanRowValues id r) now = th →
      a.rung (scanRowValues id r) now = (th : WithTop Int) := fun h =>
    Alert.rung_eq_coe_iff.mpr ⟨hpos, h⟩
  have hahead : (th : WithTop Int) < ofCounter (a.counter r) := by
    rw [← hrung hcurrent, ← Alert.last_scanRowValues a id]
    exact Alert.due_pos_iff.mp hduepos
  have hnot : ch ∉ took first s.allEnabledChannels a (scanRowValues id r) := by
    rw [took, hdue, if_pos hpos]
    intro h
    simpa [hfail] using (List.mem_filter.mp h).2
  obtain ⟨hother1, hother2⟩ := meetsOut_cons.mp hother
  -- a rung found between two passes on the same rung is that rung
  have hbucket : ∀ env ∈ passes between, a.current (scanRowValues id r) env.now = th := by
    intro env henv
    obtain ⟨hfirst, hrest⟩ := List.pairwise_cons.mp htimes
    have hle := Alert.rung_antitone a (scanRowValues id r) (hfirst env (by simp [henv]))
    have hge := Alert.rung_antitone a (scanRowValues id r)
      ((List.pairwise_append.mp hrest).2.2 env henv last (by simp))
    rw [hrung hcurrent] at hle
    rw [hrung hlast] at hge
    exact (Alert.rung_eq_coe_iff.mp (le_antisymm hle hge)).2
  have hactive' : r.active = true := hactive
  have hchannels : ch ∈ (opStep s (.pass first)).1.allEnabledChannels := by
    simpa only [Store.allEnabledChannels, opStep_channels] using hch
  have hfirst : AllSame (scanRowValues id r) [.pass first] := by
    intro now name res hmem
    simp at hmem
  refine owed_run (get?_certs_opStep _ hrow) (hr.opRow hrow hfirst) hpos ?_ hall hbucket hlast
    hchannels hwants hother2 hsend
  · rw [opRow, if_pos hactive', counter_passRow_of_owed hrow hactive' hdue hnot hother1]
    exact hahead

/-- The first channel refuses the alert of the first pass and takes that of the second. -/
theorem owed_delivered_demo :
    30 ∈ rungsTo .leaf (demoChannel 1) 1
      (runOut opStep (opStep demoScanned (.pass (demoPass 0 [1, 2]))).1
        ([.scan demoDay "" demoFirst] ++ [.pass (demoPass 1 [])])).2 := by
  refine owed_delivered demoScanned 1 demoCert .leaf (demoChannel 1) 30 (demoPass 0 [1, 2])
    (demoPass 1 []) [.scan demoDay "" demoFirst] (by decide) (by decide) (by decide) (by decide)
    (by decide) (by decide) (by decide) ?_ (by decide) (by decide) (fun _ _ => by rfl) ?_
  · intro now name res hmem hhost hport
    refine demoRun_same now name res ?_ hhost hport
    simp only [demoRun, List.mem_cons, List.not_mem_nil, or_false] at hmem ⊢
    exact Or.inr (Or.inl hmem)
  · refine meetsOut_cons.mpr ⟨fun _ ch' _ => ?_, meetsOut_cons.mpr ⟨trivial, meetsOut_nil⟩⟩
    have hnone : (notifyPass (demoPass 0 [1, 2]) demoScanned).2 = [] := by decide
    simp [hnone]

/-- The first channel refuses the alert, the second takes it: the entry is marked, and
a pass on the same rung that both would take alerts nobody. -/
theorem lost_to_other_channel :
    demoChannel 1 ∈ demoScanned.allEnabledChannels ∧
    (demoChannel 1).wantsThreshold 30 = true ∧
    Alert.leaf.due demoCert (demoPass 0 [1]).now = 30 ∧
    (∀ m, (demoPass 0 [1]).send (demoChannel 1) m = false) ∧
    Alert.leaf.current demoCert (demoPass 1 []).now = 30 ∧
    (∀ ch m, (demoPass 1 []).send ch m = true) ∧
    rungsTo .leaf (demoChannel 1) 1
      (runOut opStep demoScanned [.pass (demoPass 0 [1]), .pass (demoPass 1 [])]).2 = [] :=
  ⟨by decide, by decide, by decide, fun _ => rfl, by decide, fun _ _ => rfl, by decide⟩

/-! ### Repetitions -/

/-- What a pass alerts about is an active entry. -/
theorem row_of_mem_rungsTo {th : Int} (h : th ∈ rungsTo a ch id (notifyPass env s).2) :
    ∃ r, s.certs.get? id = some r ∧ r.active = true := by
  rw [notifyPass_deliveries, rungsTo_flatMap s.allEnabledChannels_nodup s.list_ids_nodup,
    Store.find?_list] at h
  cases hrow : s.certs.get? id with
  | none => simp [hrow] at h
  | some r =>
    refine ⟨r, rfl, ?_⟩
    by_contra hactive
    simp [hrow, Option.filter, hactive] at h

/-- If two passes of a run alert a channel about an entry at the same threshold, and
the passes before the second stored their marks, then a scan between the two found
another certificate, or chain, than the one stored. -/
theorem same_alert_after_replacement (s : Store) (a : Alert) (ch : Channel) (id th : Int)
    (before between : List Op) (first second : PassEnv)
    (hfirst : th ∈ rungsTo a ch id (notifyPass first (runOut opStep s before).1).2)
    (hsecond : th ∈ rungsTo a ch id
      (notifyPass second (runOut opStep s (before ++ .pass first :: between)).1).2)
    (hmarks : ∀ env ∈ first :: passes between, ∀ a id, env.marks a id = true) :
    ∃ pre op post, between = pre ++ op :: post ∧
      Replaces a id (runOut opStep s (before ++ .pass first :: pre)).1 op := by
  by_contra hnone
  set s' := (runOut opStep s before).1 with hs'
  rw [runOut_append_fst, ← hs'] at hsecond
  simp only [runOut_append_fst, ← hs'] at hnone
  have hkeep : MeetsOut opStep (fun s op => ¬ Replaces a id s op) s' (.pass first :: between) := by
    refine meetsOut_cons.mpr ⟨fun h => h, fun pre op post heq hop => ?_⟩
    exact hnone ⟨pre, op, post, heq, hop⟩
  -- without a replacement the counter only goes down from where the first alert put it
  obtain ⟨r, hrow, hactive⟩ := row_of_mem_rungsTo hfirst
  obtain ⟨r', hrow', hactive', hcounter⟩ := get?_certs_runOut ch hrow hactive hkeep
  have hreceived : (th : WithTop Int) ∈
      received (ofCounter (a.counter r)) (looks a ch id s' (.pass first :: between)) := by
    rw [← rungsTo_runOut ch hrow hactive hkeep, ← mem_rungsTo_iff, runOut_cons_snd, rungsTo_append]
    exact List.mem_append_left _ hfirst
  have hreceived' : (th : WithTop Int) ∈ received (marks (ofCounter (a.counter r))
      (looks a ch id s' (.pass first :: between)))
      [look second (runOut opStep s' (.pass first :: between)).1.allEnabledChannels a ch
        (scanRowValues id r')] := by
    rw [← hcounter, ← map_rungsTo_notifyPass hrow' hactive', ← mem_rungsTo_iff]
    exact hsecond
  have hnoted : Noted (looks a ch id s' (.pass first :: between)) := noted_looks hmarks
  exact absurd (lt_of_mem_received_later hnoted hreceived hreceived') (lt_irrefl _)

/-- An endpoint whose scans find one certificate, another, and the first again. -/
def demoBackends : List Op :=
  [.scan demoDay "" (demoScan "BB" 25 [demoLink "R4" 5]), .scan demoDay "" demoFirst]

/-- The certificate was replaced between the two passes, so the alert is repeated. -/
theorem same_alert_after_replacement_demo :
    ∃ pre op post, demoBackends = pre ++ op :: post ∧
      Replaces .leaf 1 (runOut opStep demoScanned ([] ++ .pass (demoPass 0 []) :: pre)).1 op :=
  same_alert_after_replacement demoScanned .leaf (demoChannel 1) 1 30 [] demoBackends
    (demoPass 0 []) (demoPass 1 []) (by decide) (by decide) fun env henv a id => by
      have henv : env = demoPass 0 [] := by simpa [passes, demoBackends] using henv
      rw [henv]
      rfl

/-- Everybody takes every alert, yet both channels get the alert about one certificate,
and the one about one chain, twice at the same threshold. -/
theorem repeated_after_return :
    let run := [.pass (demoPass 0 [])] ++ demoBackends ++ [.pass (demoPass 1 [])]
    let out := (runOut opStep demoScanned run).2
    rungsTo .leaf (demoChannel 1) 1 (out.filter fun d => d.message.cert.sha256 = "AA") = [30, 30] ∧
    rungsTo .chain (demoChannel 1) 1
      (out.filter fun d => d.message.cert.chain = [demoLink "R3" 5]) = [7, 7] := by
  decide

end CertGuard
