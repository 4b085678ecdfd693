import CertGuard.Lib.Leftmost
import CertGuard.Web.AlertPreview
import CertGuard.Web.Common
import CertGuard.Web.Days

/-!
# The dashboard's cards

The cards that `dashboard.js` writes as markup: what expires soon, the next to expire, what an
audit finds, what was renewed, and the alerts to come. Names, key types and issuers come from
outside; they are put between the tags with `escapeHtml`, and numbers, dates and classes without.

## Main definitions

* `renderSoon`, `renderNextUp`, `renderAudit`, `renderRenewals`, `renderAlerts` — the cards
* `soonDoc`, `nextUpDoc`, `auditDoc`, `renewalsDoc`, `alertsDoc` — what they are meant to show

## Main results

* `cards_read` — whatever the data, a browser reads what is meant
-/

namespace CertGuard.Dashboard

open Markup Inventory Common

abbrev Text := List Char

/-! ### What the cards look at -/

/-- The members of an entry that the cards look at. -/
structure CardCert extends ItemCert where
  keyType : Option Text := none
  signatureAlgorithm : Option Text := none
  notBefore : Option Text := none

/-- An entry of `currentItems`. -/
structure CardItem where
  cert : CardCert
  daysRemaining : Int

/-- Milliseconds of a day. -/
def dayMs : Int := 86400000

/-! ### The cards as they are written -/

/-- A row of the card of what expires soon. -/
def soonRow (date : Text → Option Int) (it : CardItem) : Option Text :=
  let c := it.cert
  let lvl := expiryLevel it.daysRemaining
  (fmtDate date c.expiresAt).map fun expires =>
    ["<div class=\"mini-row\"><span class=\"mini-name\">".toList, escapeHtml c.name,
      "</span><span class=\"muted small mini-date\">".toList, expires,
      "</span><span class=\"pill ".toList, lvl, "\">".toList, fmtRemaining it.daysRemaining,
      "</span></div>".toList].flatten

/-- `renderSoon`; `none` is the exception of `fmtDate`, which leaves the card as it is. -/
def renderSoon (date : Text → Option Int) (currentItems : List CardItem) : Option Text :=
  let items := (currentItems.filter fun it => it.daysRemaining ≤ 30).mergeSort fun a b =>
    a.daysRemaining ≤ b.daysRemaining
  if items.isEmpty then
    some "<p class=\"empty-ok\">✓ Nothing expiring in the next 30 days.</p>".toList
  else (items.mapM (soonRow date)).map List.flatten

/-- The entry that expires next. -/
def renderNextUp (date : Text → Option Int) (currentItems : List CardItem) : Option Text :=
  match currentItems.mergeSort fun a b => a.daysRemaining ≤ b.daysRemaining with
  | [] => some "<p class=\"muted\">Nothing tracked yet.</p>".toList
  | it :: _ =>
    let lvl := expiryLevel it.daysRemaining
    (fmtDate date it.cert.expiresAt).map fun expires =>
      ["<div class=\"nextup\"><div class=\"nextup-num ".toList, lvl, "\">".toList,
        fmtRemaining it.daysRemaining, "</div><div class=\"nextup-name\">".toList,
        escapeHtml it.cert.name, "</div><div class=\"muted small\">".toList, expires,
        "</div></div>".toList].flatten

/-- A match of `/RSA[- ]?(\d+)/i` at the start: the number. -/
def rsaAt (t : Text) : Option Nat :=
  if t.length < 3 ∨ (t.take 3).map Char.toLower ≠ "rsa".toList then none
  else
    let rest := t.drop 3
    let rest := if rest.head? = some '-' ∨ rest.head? = some ' ' then rest.tail else rest
    let number := rest.takeWhile Char.isDigit
    if number = [] then none else some (number.foldl (fun n c => 10 * n + (c.toNat - 48)) 0)

/-- A match of `/sha1|md5/i` at the start. -/
def weakHashAt (t : Text) : Option Unit :=
  let t := t.map Char.toLower
  if "sha1".toList <+: t ∨ "md5".toList <+: t then some () else none

/-- What an audit finds, with what is done to data: what is found is put into the markup as it
is. -/
def auditProbs (esc : Text → Text) (date : Text → Option Int) (c : CardCert) : List Text :=
  let weakKey :=
    match leftmost rsaAt (orEmpty c.keyType) with
    | some bits =>
      if bits < 2048 then ["weak key (".toList ++ esc (orEmpty c.keyType) ++ ")".toList] else []
    | none => []
  let weakSignature :=
    if (leftmost weakHashAt (orEmpty c.signatureAlgorithm)).isSome then
      ["weak signature".toList]
    else []
  let longValidity :=
    if orEmpty c.notBefore = [] ∨ c.expiresAt = [] then []
    else
      match date (orEmpty c.notBefore), date c.expiresAt with
      | some start, some stop =>
        -- an entry that was never scanned starts in the year 1
        if 2000 < Script.getUTCFullYear (Script.utcDay start) ∧ 398 * dayMs < stop - start then
          ["long validity (".toList ++ itoa ((2 * (stop - start) + dayMs) / (2 * dayMs)) ++
            "d)".toList]
        else []
      | _, _ => []
  weakKey ++ weakSignature ++ longValidity

/-- The rows of `renderAudit`: names with what was found. -/
def auditIssues (esc : Text → Text) (date : Text → Option Int) (currentItems : List CardItem) :
    List (Text × List Text) :=
  currentItems.filterMap fun it =>
    let c := it.cert
    if c.kind = "domain".toList then none
    else
      let probs := auditProbs esc date c
      if probs = [] then none else some (c.name, probs)

/-- The entries with something to object to. -/
def renderAudit (date : Text → Option Int) (currentItems : List CardItem) : Text :=
  let issues := auditIssues escapeHtml date currentItems
  if issues.isEmpty then
    "<p class=\"empty-ok\">✓ No weak keys, signatures, or over-long certs.</p>".toList
  else
    (issues.map fun i =>
      ["<div class=\"mini-row\"><span class=\"mini-name\">".toList, escapeHtml i.1,
        "</span><span class=\"audit-flags\">".toList,
        (i.2.map fun p =>
          ["<span class=\"pill warn\">".toList, p, "</span>".toList].flatten).flatten,
        "</span></div>".toList].flatten).flatten

/-- The entries issued in the last 14 days, the latest first, with the time of issue. -/
def recentItems (date : Text → Option Int) (now : Int) (currentItems : List CardItem) :
    List (CardItem × Int) :=
  (currentItems.filterMap fun it =>
    if orEmpty it.cert.notBefore = [] then none
    else (date (orEmpty it.cert.notBefore)).bind fun nb =>
      if 0 ≤ now - nb ∧ now - nb ≤ 14 * dayMs then some (it, nb) else none).mergeSort
    fun a b => b.2 ≤ a.2

/-- A row of the card of renewals. -/
def renewalRow (date : Text → Option Int) (now : Int) (it : CardItem) : Option Text :=
  let c := it.cert
  (fmtDate date c.expiresAt).map fun expires =>
    ["<div class=\"mini-row\"><span class=\"mini-name\">".toList, escapeHtml c.name,
      "</span><span class=\"muted small mini-date\">exp ".toList, expires,
      "</span><span class=\"pill ok\">issued ".toList,
      escapeHtml (relTime date now (orEmpty c.notBefore)), "</span></div>".toList].flatten

/-- The certificates issued lately. -/
def renderRenewals (date : Text → Option Int) (now : Int) (currentItems : List CardItem) :
    Option Text :=
  let recent := recentItems date now currentItems
  if recent.isEmpty then
    some "<p class=\"muted\">No certificates issued in the last 14 days.</p>".toList
  else (recent.mapM fun p => renewalRow date now p.1).map List.flatten

/-- The name of a type of channels. -/
def channelTypeText : ChannelType → Text
  | .email => "email".toList
  | .slack => "slack".toList
  | .discord => "discord".toList
  | .webhook => "webhook".toList
  | .other name => name.toList

/-- A row of the card of alerts. -/
def alertRow (u : PreviewRow) : Text :=
  ["<div class=\"mini-row\"><span class=\"mini-name\">".toList, escapeHtml u.name.toList,
    "<br><span class=\"muted small\">".toList, itoa u.t, "-day alert → ".toList,
    escapeHtml (", ".toList.intercalate (u.chans.map channelTypeText)),
    "</span></span><span class=\"pill ".toList,
    if u.inDays ≤ 1 then "urgent".toList else "notice".toList, "\">".toList,
    if u.inDays = 0 then "today".toList else "in ".toList ++ itoa u.inDays ++ "d".toList,
    "</span></div>".toList].flatten

/-- What `renderAlertPreview` writes. -/
def renderAlerts (dashChannels : List ChannelBody) (currentItems : List (Cert × Int)) : Text :=
  if dashChannels.isEmpty then
    ("<p class=\"muted\">No alert channels yet — add one in ".toList ++
      "<a href=\"/settings\">Settings</a>.</p>".toList)
  else
    let upcoming := renderAlertPreview dashChannels currentItems
    if upcoming.isEmpty then
      ["<p class=\"empty-ok\">✓ No alerts due in the next ".toList, itoa previewWindow,
        " days.</p>".toList].flatten
    else (upcoming.map alertRow).flatten

/-! ### What they are meant to show -/

def cls (value : Text) : Attr := attr "class" value

/-- A row of a card. -/
def miniRow (kids : List Source) : Source := Source.el "div" [cls "mini-row".toList] kids

/-- A paragraph in place of the rows. -/
def notice (name : String) (text : String) : Source :=
  Source.el "p" [cls name.toList] [Source.data text.toList]

/-- What a row of what expires soon shows. -/
def soonRowDoc (it : CardItem) (expires : Text) : Source :=
  miniRow
    [Source.el "span" [cls "mini-name".toList] [Source.data it.cert.name],
      Source.el "span" [cls "muted small mini-date".toList] [Source.data expires],
      Source.el "span" [cls ("pill ".toList ++ expiryLevel it.daysRemaining)]
        [Source.data (fmtRemaining it.daysRemaining)]]

/-- What the card of what expires soon shows. -/
def soonDoc (date : Text → Option Int) (currentItems : List CardItem) : Option Source :=
  let items := (currentItems.filter fun it => it.daysRemaining ≤ 30).mergeSort fun a b =>
    a.daysRemaining ≤ b.daysRemaining
  if items.isEmpty then some (notice "empty-ok" "✓ Nothing expiring in the next 30 days.")
  else (items.mapM fun it => (fmtDate date it.cert.expiresAt).map (soonRowDoc it)).map
    Source.concat

/-- What is shown of the next to expire. -/
def nextUpItemDoc (it : CardItem) (expires : Text) : Source :=
  Source.el "div" [cls "nextup".toList]
    [Source.el "div" [cls ("nextup-num ".toList ++ expiryLevel it.daysRemaining)]
        [Source.data (fmtRemaining it.daysRemaining)],
      Source.el "div" [cls "nextup-name".toList] [Source.data it.cert.name],
      Source.el "div" [cls "muted small".toList] [Source.data expires]]

/-- What the card of the next to expire shows. -/
def nextUpDoc (date : Text → Option Int) (currentItems : List CardItem) : Option Source :=
  match currentItems.mergeSort fun a b => a.daysRemaining ≤ b.daysRemaining with
  | [] => some (notice "muted" "Nothing tracked yet.")
  | it :: _ => (fmtDate date it.cert.expiresAt).map (nextUpItemDoc it)

/-- What a row of the audit shows. -/
def auditRowDoc (i : Text × List Text) : Source :=
  miniRow
    [Source.el "span" [cls "mini-name".toList] [Source.data i.1],
      Source.el "span" [cls "audit-flags".toList]
        (i.2.map fun p => Source.el "span" [cls "pill warn".toList] [Source.data p])]

/-- What the card of the audit shows. -/
def auditDoc (date : Text → Option Int) (currentItems : List CardItem) : Source :=
  let issues := auditIssues id date currentItems
  if issues.isEmpty then notice "empty-ok" "✓ No weak keys, signatures, or over-long certs."
  else Source.concat (issues.map auditRowDoc)

/-- What a row of the card of renewals shows. -/
def renewalRowDoc (it : CardItem) (ago expires : Text) : Source :=
  miniRow
    [Source.el "span" [cls "mini-name".toList] [Source.data it.cert.name],
      Source.el "span" [cls "muted small mini-date".toList]
        [Source.data "exp ".toList, Source.data expires],
      Source.el "span" [cls "pill ok".toList] [Source.data "issued ".toList, Source.data ago]]

/-- What the card of renewals shows. -/
def renewalsDoc (date : Text → Option Int) (now : Int) (currentItems : List CardItem) :
    Option Source :=
  let recent := recentItems date now currentItems
  if recent.isEmpty then some (notice "muted" "No certificates issued in the last 14 days.")
  else (recent.mapM fun p => (fmtDate date p.1.cert.expiresAt).map
    (renewalRowDoc p.1 (relTime date now (orEmpty p.1.cert.notBefore)))).map Source.concat

/-- What a row of the card of alerts shows. -/
def alertRowDoc (u : PreviewRow) : Source :=
  miniRow
    [Source.el "span" [cls "mini-name".toList]
        [Source.data u.name.toList, Source.single "br" [],
          Source.el "span" [cls "muted small".toList]
            [Source.data (itoa u.t), Source.data "-day alert → ".toList,
              Source.data (", ".toList.intercalate (u.chans.map channelTypeText))]],
      Source.el "span"
        [cls ("pill ".toList ++ if u.inDays ≤ 1 then "urgent".toList else "notice".toList)]
        [Source.data (if u.inDays = 0 then "today".toList
          else "in ".toList ++ itoa u.inDays ++ "d".toList)]]

/-- What stands where there are no channels. -/
def noChannels : Source :=
  Source.el "p" [cls "muted".toList]
    [Source.data "No alert channels yet — add one in ".toList,
      Source.el "a" [attr "href" "/settings".toList] [Source.data "Settings".toList],
      Source.data ".".toList]

/-- What the card of alerts shows. -/
def alertsDoc (dashChannels : List ChannelBody) (currentItems : List (Cert × Int)) : Source :=
  if dashChannels.isEmpty then noChannels
  else
    let upcoming := renderAlertPreview dashChannels currentItems
    if upcoming.isEmpty then notice "empty-ok" "✓ No alerts due in the next 14 days."
    else Source.concat (upcoming.map alertRowDoc)

variable {date : Text → Option Int} {now : Int}

/-! ### What stands in place of rows -/

theorem write_noneSoon :
    "<p class=\"empty-ok\">✓ Nothing expiring in the next 30 days.</p>".toList =
      (notice "empty-ok" "✓ Nothing expiring in the next 30 days.").write := by
  decide +kernel

theorem write_noneTracked : "<p class=\"muted\">Nothing tracked yet.</p>".toList =
    (notice "muted" "Nothing tracked yet.").write := by
  decide +kernel

theorem write_noneRecent :
    "<p class=\"muted\">No certificates issued in the last 14 days.</p>".toList =
      (notice "muted" "No certificates issued in the last 14 days.").write := by
  decide +kernel

theorem write_noneFound :
    "<p class=\"empty-ok\">✓ No weak keys, signatures, or over-long certs.</p>".toList =
      (notice "empty-ok" "✓ No weak keys, signatures, or over-long certs.").write := by
  decide +kernel

theorem write_noneDue : ["<p class=\"empty-ok\">✓ No alerts due in the next ".toList,
    itoa previewWindow, " days.</p>".toList].flatten =
      (notice "empty-ok" "✓ No alerts due in the next 14 days.").write := by
  decide +kernel

theorem write_noChannels : "<p class=\"muted\">No alert channels yet — add one in ".toList ++
    "<a href=\"/settings\">Settings</a>.</p>".toList = noChannels.write := by
  decide +kernel

theorem wellFormed_notice (name text : String) : (notice name text).wellFormed [] = true := by
  rfl

/-! ### The rows -/

set_option maxRecDepth 2000 in
theorem write_soonRowDoc (it : CardItem) (expires : Text) : (soonRowDoc it expires).write =
    ["<div class=\"mini-row\"><span class=\"mini-name\">".toList, escape it.cert.name,
      "</span><span class=\"muted small mini-date\">".toList, escape expires,
      "</span><span class=\"pill ".toList, escape (expiryLevel it.daysRemaining), "\">".toList,
      escape (fmtRemaining it.daysRemaining), "</span></div>".toList].flatten := by
  rfl

theorem soonRow_eq (it : CardItem) :
    soonRow date it =
      ((fmtDate date it.cert.expiresAt).map (soonRowDoc it)).map Source.write := by
  cases hdate : fmtDate date it.cert.expiresAt with
  | none => simp only [soonRow, hdate, Option.map_none]
  | some d =>
    simp only [soonRow, hdate, Option.map_some, write_soonRowDoc, escapeHtml_eq,
      escape_fmtDate hdate, escape_expiryLevel, escape_fmtRemaining]

theorem wellFormed_soonRowDoc (it : CardItem) (expires : Text) :
    (soonRowDoc it expires).wellFormed [] = true := by
  rfl

/-- The card of what expires soon is read as it is meant. -/
theorem renderSoon_read (date : Text → Option Int) (currentItems : List CardItem) :
    (renderSoon date currentItems).bind parse =
      (soonDoc date currentItems).map Source.read := by
  refine bind_parse ?_ fun m hm => ?_
  · unfold renderSoon soonDoc
    dsimp only
    split_ifs
    · rw [write_noneSoon, Option.map_some]
    · exact mapM_write soonRow_eq _
  · unfold soonDoc at hm
    dsimp only at hm
    split_ifs at hm
    · obtain rfl := Option.some.inj hm
      exact wellFormed_notice _ _
    · refine wellFormed_of_mapM (fun it m hit => ?_) hm
      obtain ⟨expires, -, rfl⟩ := Option.map_eq_some_iff.mp hit
      exact wellFormed_soonRowDoc it expires

set_option maxRecDepth 2000 in
theorem write_nextUpItemDoc (it : CardItem) (expires : Text) : (nextUpItemDoc it expires).write =
    ["<div class=\"nextup\"><div class=\"nextup-num ".toList,
      escape (expiryLevel it.daysRemaining), "\">".toList,
      escape (fmtRemaining it.daysRemaining), "</div><div class=\"nextup-name\">".toList,
      escape it.cert.name, "</div><div class=\"muted small\">".toList, escape expires,
      "</div></div>".toList].flatten := by
  rfl

/-- The card of the next to expire is read as it is meant. -/
theorem renderNextUp_read (date : Text → Option Int) (currentItems : List CardItem) :
    (renderNextUp date currentItems).bind parse =
      (nextUpDoc date currentItems).map Source.read := by
  refine bind_parse ?_ fun m hm => ?_
  · unfold renderNextUp nextUpDoc
    cases currentItems.mergeSort fun a b => a.daysRemaining ≤ b.daysRemaining with
    | nil => simp only [write_noneTracked, Option.map_some]
    | cons it rest =>
      cases hdate : fmtDate date it.cert.expiresAt with
      | none => simp only [hdate, Option.map_none]
      | some d =>
        simp only [hdate, Option.map_some, write_nextUpItemDoc, escapeHtml_eq,
          escape_fmtDate hdate, escape_expiryLevel, escape_fmtRemaining]
  · unfold nextUpDoc at hm
    split at hm
    · obtain rfl := Option.some.inj hm
      exact wellFormed_notice _ _
    · obtain ⟨expires, -, rfl⟩ := Option.map_eq_some_iff.mp hm
      rfl

set_option maxRecDepth 2000 in
theorem write_renewalRowDoc (it : CardItem) (ago expires : Text) :
    (renewalRowDoc it ago expires).write =
      ["<div class=\"mini-row\"><span class=\"mini-name\">".toList, escape it.cert.name,
        "</span><span class=\"muted small mini-date\">exp ".toList, escape expires,
        "</span><span class=\"pill ok\">issued ".toList, escape ago,
        "</span></div>".toList].flatten := by
  rfl

theorem renewalRow_eq (p : CardItem × Int) :
    renewalRow date now p.1 = ((fmtDate date p.1.cert.expiresAt).map
      (renewalRowDoc p.1 (relTime date now (orEmpty p.1.cert.notBefore)))).map Source.write := by
  cases hdate : fmtDate date p.1.cert.expiresAt with
  | none => simp only [renewalRow, hdate, Option.map_none]
  | some d =>
    simp only [renewalRow, hdate, Option.map_some, write_renewalRowDoc, escapeHtml_eq,
      escape_fmtDate hdate]

theorem wellFormed_renewalRowDoc (it : CardItem) (ago expires : Text) :
    (renewalRowDoc it ago expires).wellFormed [] = true := by
  rfl

/-- The card of renewals is read as it is meant. -/
theorem renderRenewals_read (date : Text → Option Int) (now : Int)
    (currentItems : List CardItem) :
    (renderRenewals date now currentItems).bind parse =
      (renewalsDoc date now currentItems).map Source.read := by
  refine bind_parse ?_ fun m hm => ?_
  · unfold renderRenewals renewalsDoc
    dsimp only
    split_ifs
    · rw [write_noneRecent, Option.map_some]
    · exact mapM_write renewalRow_eq _
  · unfold renewalsDoc at hm
    dsimp only at hm
    split_ifs at hm
    · obtain rfl := Option.some.inj hm
      exact wellFormed_notice _ _
    · refine wellFormed_of_mapM (fun p m hp => ?_) hm
      obtain ⟨expires, -, rfl⟩ := Option.map_eq_some_iff.mp hp
      exact wellFormed_renewalRowDoc p.1 _ expires

/-! ### The audit -/

/-- What is found is written escaped. -/
theorem auditProbs_eq (c : CardCert) :
    auditProbs escapeHtml date c = (auditProbs id date c).map escape := by
  have hlit : escape "weak key (".toList = "weak key (".toList := by decide
  have hclose : escape ")".toList = ")".toList := by decide
  have hsignature : escape "weak signature".toList = "weak signature".toList := by decide
  have hlong : escape "long validity (".toList = "long validity (".toList := by decide
  have hdays : escape "d)".toList = "d)".toList := by decide
  unfold auditProbs
  simp only [List.map_append, escapeHtml_eq, id]
  congr 1
  · congr 1
    · split
      · split_ifs
        · simp only [List.map_cons, List.map_nil, escape_append, hlit, hclose]
        · rfl
      · rfl
    · split_ifs
      · rw [List.map_cons, hsignature, List.map_nil]
      · rfl
  · split_ifs
    · rfl
    · split
      · split_ifs
        · simp only [List.map_cons, List.map_nil, escape_append, hlong, hdays, escape_itoa]
        · rfl
      · rfl

theorem auditIssues_eq (currentItems : List CardItem) :
    auditIssues escapeHtml date currentItems =
      (auditIssues id date currentItems).map fun i => (i.1, i.2.map escape) := by
  unfold auditIssues
  rw [List.map_filterMap]
  congr 1
  funext it
  by_cases hdomain : it.cert.kind = "domain".toList
  · simp only [hdomain, if_true, Option.map_none]
  · simp only [hdomain, if_false, auditProbs_eq, List.map_eq_nil_iff]
    by_cases hnone : auditProbs id date it.cert = []
    · simp only [hnone, if_true, Option.map_none]
    · simp only [hnone, if_false, Option.map_some]

/-- A flag of the audit. -/
def auditFlag (p : Text) : Source := Source.el "span" [cls "pill warn".toList] [Source.data p]

set_option maxRecDepth 2000 in
/-- A row of the audit is written as it is meant. -/
theorem write_auditRowDoc (i : Text × List Text) : (auditRowDoc i).write =
    ["<div class=\"mini-row\"><span class=\"mini-name\">".toList, escape i.1,
      "</span><span class=\"audit-flags\">".toList,
      ((i.2.map escape).map fun p =>
        ["<span class=\"pill warn\">".toList, p, "</span>".toList].flatten).flatten,
      "</span></div>".toList].flatten := by
  have hflags : (Source.concat (i.2.map auditFlag)).write = ((i.2.map escape).map fun p =>
      ["<span class=\"pill warn\">".toList, p, "</span>".toList].flatten).flatten := by
    rw [Source.write_concat, List.map_map, List.map_map]
    rfl
  have houter : (auditRowDoc i).write =
      "<div class=\"mini-row\"><span class=\"mini-name\">".toList ++ (escape i.1 ++
        ("</span><span class=\"audit-flags\">".toList ++
          (Source.concat (i.2.map auditFlag)).writeBefore "</span></div>".toList)) := by
    rfl
  rw [houter, Source.writeBefore_eq, hflags]
  simp only [List.flatten_cons, List.flatten_nil, List.append_nil]

theorem wellFormed_auditRowDoc (i : Text × List Text) :
    (auditRowDoc i).wellFormed [] = true := by
  have hflags : (Source.concat (i.2.map auditFlag)).wellFormed
      ["span".toList, "div".toList] = true := by
    refine Source.wellFormed_concat fun m hm => ?_
    obtain ⟨p, -, rfl⟩ := List.mem_map.mp hm
    rfl
  have houter : (auditRowDoc i).wellFormed [] =
      (((Source.concat (i.2.map auditFlag)).wellFormed ["span".toList, "div".toList] && true) &&
        true) := by
    rfl
  rw [houter, hflags]
  rfl

/-- The card of the audit is read as it is meant. -/
theorem renderAudit_read (date : Text → Option Int) (currentItems : List CardItem) :
    parse (renderAudit date currentItems) = some (auditDoc date currentItems).read := by
  have hwrite : renderAudit date currentItems = (auditDoc date currentItems).write := by
    unfold renderAudit auditDoc
    simp only [auditIssues_eq, List.isEmpty_map]
    split_ifs
    · exact write_noneFound
    · rw [Source.write_concat, List.map_map, List.map_map]
      congr 2
      funext i
      simp only [Function.comp, escapeHtml_eq, write_auditRowDoc]
  have hwf : (auditDoc date currentItems).wellFormed [] = true := by
    unfold auditDoc
    dsimp only
    split_ifs
    · exact wellFormed_notice _ _
    · refine Source.wellFormed_concat fun m hm => ?_
      obtain ⟨i, -, rfl⟩ := List.mem_map.mp hm
      exact wellFormed_auditRowDoc i
  rw [hwrite, parse_write hwf]

/-! ### The alerts -/

set_option maxRecDepth 2000 in
theorem alertRow_eq (u : PreviewRow) : alertRow u = (alertRowDoc u).write := by
  have hlevel : escape (if u.inDays ≤ 1 then "urgent".toList else "notice".toList) =
      if u.inDays ≤ 1 then "urgent".toList else "notice".toList := by
    split_ifs <;> decide
  have hwhen : escape (if u.inDays = 0 then "today".toList
      else "in ".toList ++ itoa u.inDays ++ "d".toList) =
      if u.inDays = 0 then "today".toList else "in ".toList ++ itoa u.inDays ++ "d".toList := by
    split_ifs
    · decide
    · simp only [escape_append, escape_itoa]
      rfl
  have hwrite : (alertRowDoc u).write =
      ["<div class=\"mini-row\"><span class=\"mini-name\">".toList, escape u.name.toList,
        "<br><span class=\"muted small\">".toList, escape (itoa u.t), "-day alert → ".toList,
        escape (", ".toList.intercalate (u.chans.map channelTypeText)),
        "</span></span><span class=\"pill ".toList,
        escape (if u.inDays ≤ 1 then "urgent".toList else "notice".toList), "\">".toList,
        escape (if u.inDays = 0 then "today".toList
          else "in ".toList ++ itoa u.inDays ++ "d".toList),
        "</span></div>".toList].flatten := by
    rfl
  rw [hwrite, hlevel, hwhen, escape_itoa, ← escapeHtml_eq]
  rfl

/-- The card of alerts is read as it is meant. -/
theorem renderAlerts_read (dashChannels : List ChannelBody) (currentItems : List (Cert × Int)) :
    parse (renderAlerts dashChannels currentItems) =
      some (alertsDoc dashChannels currentItems).read := by
  have hwrite : renderAlerts dashChannels currentItems =
      (alertsDoc dashChannels currentItems).write := by
    unfold renderAlerts alertsDoc
    dsimp only
    split_ifs
    · exact write_noChannels
    · exact write_noneDue
    · rw [Source.write_concat, List.map_map]
      congr 2
      funext u
      exact alertRow_eq u
  have hwf : (alertsDoc dashChannels currentItems).wellFormed [] = true := by
    unfold alertsDoc
    dsimp only
    split_ifs
    · rfl
    · exact wellFormed_notice _ _
    · refine Source.wellFormed_concat fun m hm => ?_
      obtain ⟨u, -, rfl⟩ := List.mem_map.mp hm
      rfl
  rw [hwrite, parse_write hwf]

/-- Whatever the names, key types, dates and channels are: what a browser reads of each card is
the tree that is meant, with every text where it belongs, and as it is but for the CRs and NULs in
it. -/
theorem cards_read (date : Text → Option Int) (now : Int) (currentItems : List CardItem)
    (dashChannels : List ChannelBody) (tracked : List (Cert × Int)) :
    (renderSoon date currentItems).bind parse = (soonDoc date currentItems).map Source.read ∧
    (renderNextUp date currentItems).bind parse = (nextUpDoc date currentItems).map Source.read ∧
    (renderRenewals date now currentItems).bind parse =
      (renewalsDoc date now currentItems).map Source.read ∧
    parse (renderAudit date currentItems) = some (auditDoc date currentItems).read ∧
    parse (renderAlerts dashChannels tracked) = some (alertsDoc dashChannels tracked).read :=
  ⟨renderSoon_read date currentItems, renderNextUp_read date currentItems,
    renderRenewals_read date now currentItems, renderAudit_read date currentItems,
    renderAlerts_read dashChannels tracked⟩

end CertGuard.Dashboard
