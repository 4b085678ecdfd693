import CertGuard.Notify.Threshold

/-!
# Messages and how they are sent

The text of an alert, and what the sender puts on the wire for each type of
channel. The network decides by what reaches it.

## Main definitions

* `Message`, `buildMessage`, `buildChainMessage` — a rendered alert
* `Wire`, `RealSender.wire` — what is sent to a channel
* `RealSender.send` — whether the channel took it

## Main results

* `Alert.message_cert`, `Alert.message_threshold` — an alert is about its entry
-/

namespace CertGuard

/-- A rendered notification for one entry at one threshold. -/
structure Message where
  cert : Cert
  threshold : Int
  days : Int
  subject : GoString
  body : GoString
  deriving DecidableEq, Repr

/-- A human label for a threshold. -/
def urgencyLabel (threshold : Int) : String :=
  if threshold = 3 then "URGENT"
  else if threshold = 7 then "WARNING"
  else if threshold = 30 then "NOTICE"
  else "INFO"

/-- A leading glyph for chat notifications. -/
def urgencyEmoji (threshold : Int) : String :=
  if threshold = 3 then "🚨"
  else if threshold = 7 then "⚠️"
  else if threshold = 30 then "📅"
  else "ℹ️"

/-- A number as text. -/
def intText (n : Int) : GoString := GoString.ofList (itoa n)

/-- `Time.Format` with the layout of a date. -/
def dateText (t : Int) : GoString := GoString.ofList (Rfc3339.formatDate t)

/-- When something expires, in words. -/
def whenText (days : Int) : GoString :=
  if days < 0 then
    GoString.ofString "expired " ++ intText (-days) ++ GoString.ofString " days ago"
  else if days = 0 then GoString.ofString "today"
  else GoString.ofString "in " ++ intText days ++ GoString.ofString " days"

/-- The line of a body that names the endpoint, if the entry has one. -/
def endpointLine (c : Cert) : GoString :=
  if c.host = "" then []
  else GoString.ofString "Endpoint: " ++ GoString.ofString c.host ++ GoString.ofString ":" ++
    intText c.port ++ GoString.ofString "\n"

/-- The alert about a certificate. -/
def buildMessage (c : Cert) (threshold now : Int) : Message :=
  let days := c.daysRemaining now
  let urgency := GoString.ofString (urgencyLabel threshold)
  let name := GoString.ofString c.name
  { cert := c
    threshold := threshold
    days := days
    subject :=
      GoString.ofString "[certguard " ++ urgency ++ GoString.ofString "] " ++ name ++
        GoString.ofString " expires " ++ whenText days
    body :=
      GoString.ofString "Certificate: " ++ name ++ GoString.ofString "\nExpires: " ++
        dateText c.expiresAt ++ GoString.ofString " (" ++ whenText days ++
        GoString.ofString ")\nUrgency: " ++ urgency ++ GoString.ofString "\n" ++
        endpointLine c ++
        (if c.issuer = [] then []
          else GoString.ofString "Issuer: " ++ c.issuer ++ GoString.ofString "\n") ++
        GoString.ofString "\nRenew or replace it before it expires." }

/-- The alert about a link of the chain that expires before the certificate does. -/
def buildChainMessage (c : Cert) (threshold now : Int) : Message :=
  match c.chainRisk with
  | none => buildMessage c threshold now
  | some risk =>
    let days := daysBetween risk.notAfter now
    let urgency := GoString.ofString (urgencyLabel threshold)
    let name := GoString.ofString c.name
    { cert := c
      threshold := threshold
      days := days
      subject :=
        GoString.ofString "[certguard " ++ urgency ++ GoString.ofString "] " ++ name ++
          GoString.ofString ": chain certificate expires " ++ whenText days
      body :=
        GoString.ofString "Entry: " ++ name ++
          GoString.ofString "\nThe certificate itself is valid until " ++
          dateText c.expiresAt ++
          GoString.ofString ", but an intermediate in the chain it serves expires sooner.\n\n" ++
          GoString.ofString "Intermediate: " ++ risk.subject ++
          GoString.ofString "\nChain expires: " ++ dateText risk.notAfter ++
          GoString.ofString " (" ++ whenText days ++ GoString.ofString ")\nUrgency: " ++ urgency ++
          GoString.ofString "\n" ++ endpointLine c ++
          GoString.ofString "\nClients will fail to build a trust path once this link expires, " ++
          GoString.ofString "even though the certificate is still in date. " ++
          GoString.ofString "Reissuing from the same CA may return the same intermediate — " ++
          GoString.ofString "ask for a chain that does not include it, " ++
          GoString.ofString "and redeploy the full chain." }

/-- The message of a kind of alert. -/
def Alert.message : Alert → Cert → Int → Int → Message
  | leaf => buildMessage
  | chain => buildChainMessage

@[simp] theorem Alert.message_cert (a : Alert) (c : Cert) (th now : Int) :
    (a.message c th now).cert = c := by
  cases a with
  | leaf => rfl
  | chain =>
    simp only [message, buildChainMessage]
    cases c.chainRisk <;> rfl

@[simp] theorem Alert.message_threshold (a : Alert) (c : Cert) (th now : Int) :
    (a.message c th now).threshold = th := by
  cases a with
  | leaf => rfl
  | chain =>
    simp only [message, buildChainMessage]
    cases c.chainRisk <;> rfl

/-! ### Sending -/

/-- A value of a JSON payload. -/
inductive PayloadVal
  | str (s : GoString)
  | num (n : Int)
  | bool (b : Bool)
  deriving DecidableEq, Repr

/-- What is put on the wire: a mail to a server, or a JSON object posted to a URL. -/
inductive Wire
  | mail (host : String) (port : Int) (user pass sender recipient : String) (msg : GoString)
  | post (url : String) (payload : List (String × PayloadVal))
  deriving DecidableEq, Repr

/-- The mail settings. -/
structure MailConfig where
  host : String
  port : Int
  user : String
  pass : String
  sender : String
  deriving DecidableEq, Repr

/-- `headerSafe` strips CR and LF. -/
def headerSafe (s : GoString) : GoString :=
  s.filter fun r => r ≠ .char '\r' ∧ r ≠ .char '\n'

/-- The chat text, between the marks a chat uses for bold. -/
def chatText (bold : String) (m : Message) : GoString :=
  GoString.ofString (urgencyEmoji m.threshold) ++ GoString.ofString " " ++
    GoString.ofString bold ++ GoString.ofString "[" ++
    GoString.ofString (urgencyLabel m.threshold) ++ GoString.ofString "]" ++
    GoString.ofString bold ++ GoString.ofString " " ++ GoString.ofString m.cert.name ++
    GoString.ofString " — expires " ++ GoString.ofString bold ++ dateText m.cert.expiresAt ++
    GoString.ofString bold ++ GoString.ofString " (" ++ intText m.days ++
    GoString.ofString " days)"

def slackText (m : Message) : GoString := chatText "*" m

def discordText (m : Message) : GoString := chatText "**" m

/-- The members of the object a webhook is sent. -/
def genericPayload (m : Message) : List (String × PayloadVal) :=
  [("event", .str (GoString.ofString "cert_expiry_warning")),
    ("name", .str (GoString.ofString m.cert.name)),
    ("expires_at", .str (GoString.ofList (Rfc3339.format m.cert.expiresAt))),
    ("days_remaining", .num m.days),
    ("threshold", .num m.threshold),
    ("urgency", .str (GoString.ofString (urgencyLabel m.threshold))),
    ("host", .str (GoString.ofString m.cert.host)),
    ("sha256", .str (GoString.ofString m.cert.sha256))]

/-- The text of a mail. -/
def mailText (sender recipient : String) (m : Message) : GoString :=
  GoString.ofString "From: " ++ GoString.ofString sender ++ GoString.ofString "\r\nTo: " ++
    GoString.ofString recipient ++ GoString.ofString "\r\nSubject: " ++ headerSafe m.subject ++
    GoString.ofString
      "\r\nMIME-Version: 1.0\r\nContent-Type: text/plain; charset=utf-8\r\n\r\n" ++
    m.body ++ GoString.ofString "\r\n"

namespace RealSender

/-- What `sendEmail` hands to the mail server; nothing when mail is not configured. -/
def sendEmail (cfg : MailConfig) (recipient : String) (m : Message) : Option Wire :=
  if cfg.host = "" ∨ cfg.user = "" then none
  else
    let sender := if cfg.sender = "" then cfg.user else cfg.sender
    some (.mail cfg.host cfg.port cfg.user cfg.pass sender recipient
      (mailText sender recipient m))

/-- What `Send` puts on the wire for a channel, if anything. -/
def wire (cfg : MailConfig) (ch : Channel) (m : Message) : Option Wire :=
  match ch.type with
  | .email => sendEmail cfg ch.target m
  | .slack => some (.post ch.target [("text", .str (slackText m)), ("mrkdwn", .bool true)])
  | .discord => some (.post ch.target [("content", .str (discordText m))])
  | .webhook => some (.post ch.target (genericPayload m))
  | .other _ => none

/-- `Send`: whether the other end took what reached it. -/
def send (cfg : MailConfig) (taken : Wire → Bool) (ch : Channel) (m : Message) : Bool :=
  (wire cfg ch m).any taken

end RealSender

end CertGuard
