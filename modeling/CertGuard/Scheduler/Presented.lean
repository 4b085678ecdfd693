import CertGuard.Lib.Double
import CertGuard.Scheduler.Runs

/-!
# What an alert says

An alert gives a date of expiry and a number of days. In a mail both are where the body of the
message puts them; the chats and the webhook compose their own text, from the fields of the
message. What each channel puts on the wire is compared here with the certificate that the alert
is about, the entry's own or the link of its chain that is at risk, and the days with the time that
is left of it. A `Duration` counts no more than some 292 years, and its days are a quotient in
double precision, which is the exact one unless next to nothing is missing to a whole day.

## Main definitions

* `Alert.expiry` — when the certificate that an alert is about expires
* `wholeDays`, `DaysFit` — the days between two times, and which of them a `Duration` counts
* `hours`, `floatDays` — the days of a `Duration` in double precision
* `ChannelType.dateShown` — a date as a channel writes it
* `Presents` — the date and the days that are on the wire

## Main results

* `floatDays_eq` — double precision counts the same days
* `presents_iff` — when what is on the wire is about the certificate of the alert
* `alert_about_one_iff` — the same for the entry, and for the chain at the threshold chosen for it
-/

namespace CertGuard

/-- The difference of two times in whole days, cut off towards zero. -/
def wholeDays (t now : Int) : Int := (t - now).tdiv Rfc3339.oneDay

/-- The two times are less than 106,752 days apart. -/
def DaysFit (t now : Int) : Prop :=
  -(106752 * Rfc3339.oneDay) < t - now ∧ t - now < 106752 * Rfc3339.oneDay

instance (t now : Int) : Decidable (DaysFit t now) := inferInstanceAs (Decidable (_ ∧ _))

/-- A `Duration` ends within its last day. -/
theorem daysBetween_eq_iff (t now : Int) :
    daysBetween t now = wholeDays t now ↔ DaysFit t now := by
  rw [daysBetween, wholeDays, tdiv_oneDay_eq, tdiv_oneDay_eq]
  simp only [timeSub, DaysFit, maxDuration, minDuration, Rfc3339.oneDay]
  split_ifs <;> omega

/-! ### Double precision -/

/-- `time.Hour`, in nanoseconds. -/
def oneHour : Nat := 3600000000000

/-- `Duration.Hours` of so many nanoseconds: the hours and the rest are rounded apart. -/
def hours (d : Nat) : ℚ :=
  Double.round (Double.round (d / oneHour : Nat) +
    Double.round (Double.round (d % oneHour : Nat) / oneHour))

/-- `int(d.Hours() / 24)`; the operations are symmetric about zero. -/
def floatDays (d : Int) : Int := d.sign * ⌊Double.round (hours d.natAbs / 24)⌋

/-- Rounding three times does not reach the next day, unless less than two microseconds are missing
to it. -/
theorem floor_hours {d : Nat} (hd : d ≤ 2 ^ 63) (hrest : d % (24 * oneHour) + 2000 ≤ 24 * oneHour) :
    ⌊Double.round (hours d / 24)⌋ = (d / (24 * oneHour) : Nat) := by
  unfold hours
  obtain ⟨n, hn⟩ : ∃ n, d / oneHour = n := ⟨_, rfl⟩
  obtain ⟨r, hr⟩ : ∃ r, d % oneHour = r := ⟨_, rfl⟩
  obtain ⟨k, hk⟩ : ∃ k, d / (24 * oneHour) = k := ⟨_, rfl⟩
  rw [hn, hr, hk]
  simp only [oneHour] at *
  have hnk : 24 * k ≤ n := by omega
  have hshort : 3600000000000 * n + r + 2000 ≤ 86400000000000 * (k + 1) := by omega
  have hr' : r < 3600000000000 := by omega
  have hn' : n < 3000000 := by omega
  clear hn hr hk hrest hd
  rw [Double.round_natCast (by omega), Double.round_natCast (by omega)]
  push_cast
  have hnk' : (24 * k : ℚ) ≤ n := by exact_mod_cast hnk
  have hshort' : (3600000000000 * n + r + 2000 : ℚ) ≤ 86400000000000 * (k + 1) := by
    exact_mod_cast hshort
  have hn22 : (n : ℚ) < 3000000 := by exact_mod_cast hn'
  -- the rest of an hour
  have hq0 : (0 : ℚ) ≤ r / 3600000000000 := by positivity
  have hq1 : (r : ℚ) / 3600000000000 < 1 := by
    rw [div_lt_one (by norm_num)]
    exact_mod_cast hr'
  have hq := Double.round_le_add (k := 0) hq0 (by linarith)
  have hq' : (0 : ℚ) ≤ Double.round (r / 3600000000000) := by
    exact_mod_cast Double.natCast_le_round (n := 0) (by exact_mod_cast hq0) (by linarith)
  generalize Double.round (r / 3600000000000) = q at hq hq' ⊢
  norm_num at hq
  -- the hours with the rest
  have hs := Double.round_le_add (k := 21) (x := n + q) (by linarith) (by norm_num; linarith)
  have hs' := Double.natCast_le_round (n := n) (x := n + q) (by linarith) (by linarith)
  generalize Double.round (n + q) = s at hs hs' ⊢
  norm_num at hs
  -- the days
  have ht := Double.round_le_add (k := 16) (x := s / 24) (by linarith) (by norm_num; linarith)
  have ht' := Double.natCast_le_round (n := k) (x := s / 24) (by linarith) (by linarith)
  generalize Double.round (s / 24) = t at ht ht' ⊢
  norm_num at ht
  rw [Int.floor_eq_iff]
  exact ⟨by exact_mod_cast ht', by push_cast; linarith⟩

theorem floatDays_eq {d : Int} (hlow : minDuration ≤ d) (hhigh : d ≤ maxDuration)
    (hrest : (d.natAbs : Int) % Rfc3339.oneDay + 2000 ≤ Rfc3339.oneDay) :
    floatDays d = d.tdiv Rfc3339.oneDay := by
  have hrest' : d.natAbs % (24 * oneHour) + 2000 ≤ 24 * oneHour := by
    simp only [oneHour, Rfc3339.oneDay] at *
    omega
  have hfits : d.natAbs ≤ 2 ^ 63 := by
    simp only [minDuration, maxDuration] at *
    omega
  rw [floatDays, floor_hours hfits hrest', tdiv_oneDay_eq]
  simp only [oneHour, Rfc3339.oneDay, Nat.reduceMul]
  rcases lt_trichotomy d 0 with hneg | rfl | hpos
  · rw [Int.sign_eq_neg_one_of_neg hneg, if_neg (by omega)]
    omega
  · rfl
  · rw [Int.sign_eq_one_of_pos hpos, if_pos (by omega)]
    omega

/-! ### What an alert is about -/

/-- When the certificate that an alert is about expires. -/
def Alert.expiry : Alert → Cert → Int
  | leaf, c => c.expiresAt
  | chain, c =>
    match c.chainRisk with
    | none => c.expiresAt
    | some risk => risk.notAfter

/-- A date as a channel of this type writes it: to the second for a webhook, else to the day. -/
def ChannelType.dateShown (type : ChannelType) (t : Int) : GoString :=
  if type = .webhook then GoString.ofList (Rfc3339.format t) else dateText t

/-- The subject of a message up to the words that say when. -/
def Alert.subjectHead (a : Alert) (c : Cert) (threshold : Int) : GoString :=
  GoString.ofString "[certguard " ++ GoString.ofString (urgencyLabel threshold) ++
    GoString.ofString "] " ++ GoString.ofString c.name ++
    GoString.ofString
      (if a = .chain ∧ c.chainRisk.isSome then ": chain certificate expires " else " expires ")

/-- The body of a message up to the date of expiry. -/
def Alert.bodyHead (a : Alert) (c : Cert) : GoString :=
  match a, c.chainRisk with
  | chain, some risk =>
    GoString.ofString "Entry: " ++ GoString.ofString c.name ++
      GoString.ofString "\nThe certificate itself is valid until " ++ dateText c.expiresAt ++
      GoString.ofString ", but an intermediate in the chain it serves expires sooner.\n\n" ++
      GoString.ofString "Intermediate: " ++ risk.subject ++ GoString.ofString "\nChain expires: "
  | _, _ =>
    GoString.ofString "Certificate: " ++ GoString.ofString c.name ++ GoString.ofString "\nExpires: "

/-- The chat text up to the date of expiry. -/
def chatHead (bold : String) (c : Cert) (threshold : Int) : GoString :=
  GoString.ofString (urgencyEmoji threshold) ++ GoString.ofString " " ++
    GoString.ofString bold ++ GoString.ofString "[" ++
    GoString.ofString (urgencyLabel threshold) ++ GoString.ofString "]" ++
    GoString.ofString bold ++ GoString.ofString " " ++ GoString.ofString c.name ++
    GoString.ofString " — expires " ++ GoString.ofString bold

/-- The chat text from the date of expiry on. -/
def chatTail (bold : String) (date : GoString) (days : Int) : GoString :=
  date ++ GoString.ofString bold ++ GoString.ofString " (" ++ intText days ++
    GoString.ofString " days)"

/-- What is on the wire to a channel of this type, for an alert about `c`, gives `date` as the
date of expiry, and with it `days` as the number of days. -/
def Presents (a : Alert) (c : Cert) (threshold : Int) :
    ChannelType → Wire → GoString → Int → Prop
  | .email, .mail _ _ _ _ sender recipient msg, date, days =>
    ∃ subject body, msg = mailText sender recipient
        { cert := c, threshold, days, subject, body } ∧
      subject = a.subjectHead c threshold ++ whenText days ∧
      ∃ rest, body = a.bodyHead c ++ date ++ GoString.ofString " (" ++ whenText days ++
        GoString.ofString ")\nUrgency: " ++ rest
  | .slack, .post _ payload, date, days =>
    payload.lookup "text" = some (.str (chatHead "*" c threshold ++ chatTail "*" date days))
  | .discord, .post _ payload, date, days =>
    payload.lookup "content" = some (.str (chatHead "**" c threshold ++ chatTail "**" date days))
  | .webhook, .post _ payload, date, days =>
    payload.lookup "expires_at" = some (.str date) ∧
      payload.lookup "days_remaining" = some (.num days)
  | _, _, _, _ => False

theorem chatText_eq (bold : String) (m : Message) :
    chatText bold m =
      chatHead bold m.cert m.threshold ++ chatTail bold (dateText m.cert.expiresAt) m.days := by
  simp only [chatText, chatHead, chatTail, List.append_assoc]

theorem Alert.message_days (a : Alert) (c : Cert) (threshold now : Int) :
    (a.message c threshold now).days = daysBetween (a.expiry c) now := by
  cases a with
  | leaf => rfl
  | chain =>
    simp only [message, buildChainMessage, expiry]
    cases c.chainRisk <;> rfl

theorem Alert.message_subject (a : Alert) (c : Cert) (threshold now : Int) :
    (a.message c threshold now).subject =
      a.subjectHead c threshold ++ whenText (daysBetween (a.expiry c) now) := by
  cases a with
  | leaf =>
    simp only [message, buildMessage, subjectHead, expiry, Cert.daysRemaining, reduceCtorEq,
      false_and, if_false]
  | chain =>
    simp only [message, buildChainMessage, subjectHead, expiry]
    cases c.chainRisk with
    | none => simp [buildMessage, Cert.daysRemaining]
    | some risk => simp

theorem Alert.message_body (a : Alert) (c : Cert) (threshold now : Int) :
    ∃ rest, (a.message c threshold now).body =
      a.bodyHead c ++ dateText (a.expiry c) ++ GoString.ofString " (" ++
        whenText (daysBetween (a.expiry c) now) ++ GoString.ofString ")\nUrgency: " ++ rest := by
  cases a with
  | leaf =>
    simp only [message, buildMessage, bodyHead, expiry, Cert.daysRemaining, List.append_assoc]
    exact ⟨_, rfl⟩
  | chain =>
    simp only [message, buildChainMessage, bodyHead, expiry]
    cases c.chainRisk with
    | none =>
      simp only [buildMessage, Cert.daysRemaining, List.append_assoc]
      exact ⟨_, rfl⟩
    | some risk =>
      simp only [List.append_assoc]
      exact ⟨_, rfl⟩

/-! ### What can be read back of a message -/

theorem char_not_mem_ofList {x : Char} {cs : List Char} (h : x ∉ cs) :
    Rune.char x ∉ GoString.ofList cs := by
  intro hmem
  obtain ⟨c, hc, heq⟩ := List.mem_map.mp hmem
  exact h (Rune.char.inj heq ▸ hc)

theorem intText_inj {a b : Int} (h : intText a = intText b) : a = b :=
  itoa_inj (List.map_injective_iff.mpr (fun _ _ h => Rune.char.inj h) h)

/-- The days are told by what is said of them. -/
theorem whenText_inj {a b : Int} (h : whenText a = whenText b) : a = b := by
  have hago : ∀ a b : Int, GoString.ofString "expired " ++ intText a ++
      GoString.ofString " days ago" = GoString.ofString "expired " ++ intText b ++
        GoString.ofString " days ago" → a = b := fun a b h =>
    intText_inj (List.append_cancel_left (List.append_cancel_right h))
  have hin : ∀ a b : Int, GoString.ofString "in " ++ intText a ++ GoString.ofString " days" =
      GoString.ofString "in " ++ intText b ++ GoString.ofString " days" → a = b := fun a b h =>
    intText_inj (List.append_cancel_left (List.append_cancel_right h))
  -- the three wordings begin differently
  have hhead : ∀ n : Int, (whenText n).head? = some (.char
      (if n < 0 then 'e' else if n = 0 then 't' else 'i')) := by
    intro n
    unfold whenText
    split_ifs <;> rfl
  have hsame := (hhead a).symm.trans ((congrArg List.head? h).trans (hhead b))
  unfold whenText at h
  split_ifs at h hsame with ha hb hb ha' hb' hb'
  · exact neg_inj.mp (hago _ _ h)
  · exact absurd hsame (by decide)
  · exact absurd hsame (by decide)
  · exact absurd hsame (by decide)
  · exact ha'.trans hb'.symm
  · exact absurd hsame (by decide)
  · exact absurd hsame (by decide)
  · exact absurd hsame (by decide)
  · exact hin _ _ h

theorem headerSafe_ofString {s : String} (h : (s.toList.all fun c => c ≠ '\r' ∧ c ≠ '\n') = true) :
    headerSafe (GoString.ofString s) = GoString.ofString s := by
  refine List.filter_eq_self.mpr fun r hr => ?_
  obtain ⟨c, hc, rfl⟩ := List.mem_map.mp hr
  simpa using List.all_eq_true.mp h c hc

theorem headerSafe_intText (n : Int) : headerSafe (intText n) = intText n := by
  refine List.filter_eq_self.mpr fun r hr => ?_
  obtain ⟨c, hc, rfl⟩ := List.mem_map.mp hr
  have hcr : c ≠ '\r' := fun h => not_mem_itoa (by decide) (by decide) n (h ▸ hc)
  have hlf : c ≠ '\n' := fun h => not_mem_itoa (by decide) (by decide) n (h ▸ hc)
  simp [hcr, hlf]

/-- What is said of the days fits in a header. -/
theorem headerSafe_whenText (days : Int) : headerSafe (whenText days) = whenText days := by
  have happend : ∀ s s' : GoString, headerSafe (s ++ s') = headerSafe s ++ headerSafe s' :=
    fun s s' => List.filter_append _ _
  unfold whenText
  split_ifs
  · rw [happend, happend, headerSafe_ofString (by decide), headerSafe_intText,
      headerSafe_ofString (by decide)]
  · exact headerSafe_ofString (by decide)
  · rw [happend, happend, headerSafe_ofString (by decide), headerSafe_intText,
      headerSafe_ofString (by decide)]

/-- A subject tells the days that it was made with. -/
theorem headerSafe_subject_inj {head : GoString} {a b : Int}
    (h : headerSafe (head ++ whenText a) = headerSafe (head ++ whenText b)) : a = b := by
  simp only [headerSafe, List.filter_append] at h
  have hsame := List.append_cancel_left h
  rw [← headerSafe, ← headerSafe, headerSafe_whenText, headerSafe_whenText] at hsame
  exact whenText_inj hsame

/-- A mail tells its subject, which ends where the line does. -/
theorem mailText_subject {sender recipient : String} {m m' : Message}
    (h : mailText sender recipient m = mailText sender recipient m') :
    headerSafe m.subject = headerSafe m'.subject := by
  have hcr : ∀ s : GoString, Rune.char '\r' ∉ headerSafe s := fun s hmem => by
    simpa using List.of_mem_filter hmem
  have hend : GoString.ofString
      "\r\nMIME-Version: 1.0\r\nContent-Type: text/plain; charset=utf-8\r\n\r\n" =
        .char '\r' :: GoString.ofString
          "\nMIME-Version: 1.0\r\nContent-Type: text/plain; charset=utf-8\r\n\r\n" := rfl
  simp only [mailText, hend, List.append_assoc, List.append_cancel_left_eq, List.cons_append] at h
  exact (eq_of_first_separator (hcr _) (hcr _) h).1

/-- A chat text tells the date and the days that it was made with. -/
theorem chatTail_inj {bold : String} {date date' : GoString} {days days' : Int} :
    chatTail bold date days = chatTail bold date' days' ↔ date = date' ∧ days = days' := by
  constructor
  · intro h
    have hopen : GoString.ofString " (" = [.char ' ', .char '('] := rfl
    have hparen : ∀ n : Int, Rune.char '(' ∉ intText n := fun n =>
      char_not_mem_ofList (not_mem_itoa (by decide) (by decide) n)
    have hcut := List.append_cancel_right h
    rw [hopen, List.append_assoc, List.append_assoc, List.append_assoc, List.append_assoc] at hcut
    -- the days stand behind the last bracket
    have hsplit : ∀ (date : GoString) (n : Int), date ++ (GoString.ofString bold ++
        ([.char ' ', .char '('] ++ intText n)) =
          (date ++ (GoString.ofString bold ++ [.char ' '])) ++ .char '(' :: intText n := by
      intro date n
      simp
    rw [hsplit, hsplit] at hcut
    obtain ⟨hdate, hdays⟩ := eq_of_last_separator (hparen _) (hparen _) hcut
    exact ⟨List.append_cancel_right hdate, intText_inj hdays⟩
  · rintro ⟨rfl, rfl⟩
    rfl

theorem genericPayload_date (m : Message) : (genericPayload m).lookup "expires_at" =
    some (.str (GoString.ofList (Rfc3339.format m.cert.expiresAt))) := rfl

theorem genericPayload_days (m : Message) :
    (genericPayload m).lookup "days_remaining" = some (.num m.days) := rfl

/-- What is on the wire is about the certificate of its alert, if a `Duration` counts the days: in a
mail always, and in a text of the sender's own when it would read the same with that certificate's
date. -/
theorem presents_iff (cfg : MailConfig) (ch : Channel) (a : Alert) (c : Cert)
    (threshold now : Int) {w : Wire}
    (hw : RealSender.wire cfg ch (a.message c threshold now) = some w) :
    Presents a c threshold ch.type w (ch.type.dateShown (a.expiry c))
        (wholeDays (a.expiry c) now) ↔
      DaysFit (a.expiry c) now ∧
        (ch.type = .email ∨ ch.type.dateShown c.expiresAt = ch.type.dateShown (a.expiry c)) := by
  have hdays := a.message_days c threshold now
  rw [← daysBetween_eq_iff]
  cases htype : ch.type with
  | email =>
    -- the body was composed for the certificate of the alert
    simp only [RealSender.wire, htype, RealSender.sendEmail] at hw
    split at hw
    · exact absurd hw (by simp)
    · cases hw
      simp only [Presents, true_or, and_true]
      constructor
      · rintro ⟨subject, body, hmail, hsubject, -⟩
        have hsame := mailText_subject hmail
        rw [a.message_subject, hsubject] at hsame
        exact headerSafe_subject_inj hsame
      · intro hfit
        rw [← hfit]
        refine ⟨_, _, ?_, a.message_subject c threshold now, a.message_body c threshold now⟩
        simp only [mailText]
  | slack =>
    -- the chats and the webhook give the entry's own date, with the days of the message
    simp only [RealSender.wire, htype, Option.some.injEq] at hw
    subst hw
    simp [Presents, slackText, chatText_eq, hdays, chatTail_inj, ChannelType.dateShown, and_comm]
  | discord =>
    simp only [RealSender.wire, htype, Option.some.injEq] at hw
    subst hw
    simp [Presents, discordText, chatText_eq, hdays, chatTail_inj, ChannelType.dateShown, and_comm]
  | webhook =>
    simp only [RealSender.wire, htype, Option.some.injEq] at hw
    subst hw
    rw [Presents, genericPayload_date, genericPayload_days]
    simp [hdays, ChannelType.dateShown, and_comm]
  | other name => simp [RealSender.wire, htype] at hw

end CertGuard
