import SupportApi.Conversations.Service

namespace SupportApi.Workers

open Conversations

structure EmailHeaders where
  spfPolicy : String
  dkimSignature : String
  dmarcPolicy : String
  messageId : String
  mailer : String
  deriving DecidableEq

structure EmailEnvelope where
  fromAddress : String
  toAddress : String
  subject : String
  html : String
  headers : EmailHeaders
  deriving DecidableEq

/-- How the server's locale and time zone write a date. -/
abbrev Locale := Option Time → String

def noteRow (note : String) : String :=
  String.intercalate "\n" ["",
    "      <tr><td style=\"padding:8px;background:#f9fafb;font-weight:600\">Note</td>",
    "          <td style=\"padding:8px\">" ++ note ++ "</td></tr>"]

def buildHtmlBody (locale : Locale) (data : ResolutionJob) : String :=
  String.intercalate "\n" ["", "<!DOCTYPE html>", "<html>",
    "<head><meta charset=\"utf-8\"><title>Ticket Resolved</title></head>",
    "<body style=\"font-family: sans-serif; color: #333; max-width: 600px; margin: 0 auto;\">",
    "  <div style=\"background:#4f46e5;padding:24px;border-radius:8px 8px 0 0\">",
    "    <h1 style=\"color:white;margin:0;font-size:20px\">Your ticket has been resolved ✓</h1>",
    "  </div>",
    "  <div style=\"border:1px solid #e5e7eb;border-top:none;padding:24px;border-radius:0 0 8px 8px\">",
    "    <p>Hi <strong>" ++ data.customerName ++ "</strong>,</p>",
    "    <p>Your support ticket has been marked as resolved.</p>",
    "    <table style=\"width:100%;border-collapse:collapse;margin:16px 0\">",
    "      <tr><td style=\"padding:8px;background:#f9fafb;font-weight:600\">Ticket</td>",
    "          <td style=\"padding:8px\">" ++ data.subject ++ "</td></tr>",
    "      <tr><td style=\"padding:8px;background:#f9fafb;font-weight:600\">Resolved by</td>",
    "          <td style=\"padding:8px\">" ++ data.agentName ++ "</td></tr>",
    "      <tr><td style=\"padding:8px;background:#f9fafb;font-weight:600\">Resolved on</td>",
    "          <td style=\"padding:8px\">" ++ locale data.resolvedAt ++ "</td></tr>",
    "      " ++ ((data.resolutionNote.filter fun note => note ≠ "").map noteRow).getD "",
    "    </table>",
    "    <p>If you have further questions, please open a new ticket.</p>",
    "    <p style=\"color:#6b7280;font-size:12px;margin-top:32px\">",
    "      This email was sent from an automated system. Ticket ID: " ++
      String.ofList data.conversationId.text,
    "    </p>", "  </div>", "</body>", "</html>"]

def fromDomain : String := "support.platform"

def buildEmailEnvelope (locale : Locale) (data : ResolutionJob) (now : Time) : EmailEnvelope where
  fromAddress := "\"Support Platform\" <no-reply@" ++ fromDomain ++ ">"
  toAddress := "\"" ++ data.customerName ++ "\" <" ++ data.customerEmail ++ ">"
  subject := "Your support ticket has been resolved: " ++ data.subject
  html := buildHtmlBody locale data
  headers :=
    { spfPolicy := "v=spf1 include:_spf." ++ fromDomain ++ " ~all"
      dkimSignature := String.intercalate " " ["v=1; a=rsa-sha256;", "d=" ++ fromDomain ++ "; s=mail;",
        "c=relaxed/relaxed;", "h=from:to:subject:date:message-id;",
        "bh=<base64_body_hash_would_be_computed_here>;",
        "b=<rsa_signature_would_be_computed_here>"]
      dmarcPolicy := "v=DMARC1; p=quarantine; rua=mailto:dmarc@" ++ fromDomain ++ "; adkim=s; aspf=s"
      messageId := "<" ++ String.ofList data.conversationId.text ++ "." ++ toString now ++
        "@support.platform>"
      mailer := "SupportPlatform/1.0" }

def startsWith (s start : String) : Bool := start.toList.isPrefixOf s.toList

theorem startsWith_append {s start : String} (h : startsWith s start = true) (rest : String) :
    startsWith (s ++ rest) start = true := by
  simp only [startsWith, List.isPrefixOf_iff_prefix, String.toList_append] at h ⊢
  exact h.trans (List.prefix_append _ _)

theorem startsWith_intercalate {s start : String} (h : startsWith s start = true) (sep : String)
    (rest : List String) : startsWith (String.intercalate sep (s :: rest)) start = true := by
  induction rest generalizing s with
  | nil => exact h
  | cons next rest ih => exact ih (startsWith_append (startsWith_append h sep) next)

theorem append_ne_empty {s : String} (h : s ≠ "") (rest : String) : s ++ rest ≠ "" :=
  fun hempty => h (String.append_eq_empty_iff.mp hempty).1

/-- The errors are collected, so one message names all that is wrong. -/
def deliverabilityErrors (envelope : EmailEnvelope) : List String :=
  (if startsWith envelope.headers.dkimSignature "v=1" then []
    else ["DKIM signature missing or malformed"]) ++
  (if startsWith envelope.headers.spfPolicy "v=spf1" then []
    else ["SPF policy missing or malformed"]) ++
  (if startsWith envelope.headers.dmarcPolicy "v=DMARC1" then []
    else ["DMARC policy missing or malformed"]) ++
  (if envelope.fromAddress = "" ∨ envelope.toAddress = "" then ["Missing From or To address"] else []) ++
  (if envelope.headers.messageId = "" then ["Missing Message-ID header"] else [])

def validateDeliverabilityStandards (envelope : EmailEnvelope) : Except String Unit :=
  match deliverabilityErrors envelope with
  | [] => .ok ()
  | errors =>
    .error ("Email deliverability validation failed: " ++ String.intercalate "; " errors)

def handleResolutionEmail (locale : Locale) (data : ResolutionJob) (now : Time) :
    Except String EmailEnvelope :=
  let envelope := buildEmailEnvelope locale data now
  match validateDeliverabilityStandards envelope with
  | .error e => .error e
  | .ok () => .ok envelope

theorem deliverabilityErrors_build (locale : Locale) (data : ResolutionJob) (now : Time) :
    deliverabilityErrors (buildEmailEnvelope locale data now) = [] := by
  have hdkim : startsWith (buildEmailEnvelope locale data now).headers.dkimSignature "v=1" = true :=
    startsWith_intercalate (by decide) _ _
  have hspf : startsWith (buildEmailEnvelope locale data now).headers.spfPolicy "v=spf1" = true :=
    startsWith_append (startsWith_append (by decide) _) _
  have hdmarc :
      startsWith (buildEmailEnvelope locale data now).headers.dmarcPolicy "v=DMARC1" = true :=
    startsWith_append (startsWith_append (by decide) _) _
  have hfrom : (buildEmailEnvelope locale data now).fromAddress ≠ "" :=
    append_ne_empty (append_ne_empty (by decide) _) _
  have hto : (buildEmailEnvelope locale data now).toAddress ≠ "" :=
    append_ne_empty (append_ne_empty (append_ne_empty (append_ne_empty (by decide) _) _) _) _
  have hid : (buildEmailEnvelope locale data now).headers.messageId ≠ "" :=
    append_ne_empty (append_ne_empty (append_ne_empty (append_ne_empty (by decide) _) _) _) _
  simp only [deliverabilityErrors, hdkim, hspf, hdmarc, hfrom, hto, hid, or_self, if_true, if_false,
    List.append_nil]

theorem handleResolutionEmail_eq (locale : Locale) (data : ResolutionJob) (now : Time) :
    handleResolutionEmail locale data now = .ok (buildEmailEnvelope locale data now) := by
  have herrors := deliverabilityErrors_build locale data now
  unfold handleResolutionEmail validateDeliverabilityStandards
  simp only [herrors]

end SupportApi.Workers
