import SupportApi.Lib.Address
import SupportApi.Lib.Html
import SupportApi.Workers.Resolution

namespace SupportApi.Workers

open Lib Conversations

def text (s : String) : Html.Item := .text s.toList

def tag (s : String) : Html.Item := .tag s.toList

def templateRow (label value : String) : List (List Html.Item) :=
  [[text "      ", tag "tr", tag "td style=\"padding:8px;background:#f9fafb;font-weight:600\"",
      text label, tag "/td"],
    [text "          ", tag "td style=\"padding:8px\"", text value, tag "/td", tag "/tr"]]

def givenNote (data : ResolutionJob) : Option String :=
  data.resolutionNote.filter fun note => note ≠ ""

def templateNote : Option String → List Html.Item
  | none => []
  | some note => text "\n" :: [text "\n"].intercalate (templateRow "Note" note)

def template (locale : Locale) (data : ResolutionJob) : List (List Html.Item) :=
  [[], [tag "!DOCTYPE html"], [tag "html"],
    [tag "head", tag "meta charset=\"utf-8\"", tag "title", text "Ticket Resolved", tag "/title",
      tag "/head"],
    [tag "body style=\"font-family: sans-serif; color: #333; max-width: 600px; margin: 0 auto;\""],
    [text "  ", tag "div style=\"background:#4f46e5;padding:24px;border-radius:8px 8px 0 0\""],
    [text "    ", tag "h1 style=\"color:white;margin:0;font-size:20px\"",
      text "Your ticket has been resolved ✓", tag "/h1"],
    [text "  ", tag "/div"],
    [text "  ",
      tag "div style=\"border:1px solid #e5e7eb;border-top:none;padding:24px;border-radius:0 0 8px 8px\""],
    [text "    ", tag "p", text "Hi ", tag "strong", text data.customerName, tag "/strong", text ",",
      tag "/p"],
    [text "    ", tag "p", text "Your support ticket has been marked as resolved.", tag "/p"],
    [text "    ", tag "table style=\"width:100%;border-collapse:collapse;margin:16px 0\""]] ++
  templateRow "Ticket" data.subject ++ templateRow "Resolved by" data.agentName ++
  templateRow "Resolved on" (locale data.resolvedAt) ++
  [text "      " :: templateNote (givenNote data), [text "    ", tag "/table"],
    [text "    ", tag "p", text "If you have further questions, please open a new ticket.",
      tag "/p"],
    [text "    ", tag "p style=\"color:#6b7280;font-size:12px;margin-top:32px\""],
    [text "      This email was sent from an automated system. Ticket ID: ",
      .text data.conversationId.text],
    [text "    ", tag "/p"], [text "  ", tag "/div"], [tag "/body"], [tag "/html"]]

def templateBody (locale : Locale) (data : ResolutionJob) : Html.Pieces :=
  Html.ofItems ([text "\n"].intercalate (template locale data))

def source (line : List Html.Item) : List Char := line.flatMap Html.Item.source

theorem source_tag (s : String) : (tag s).source = ("<" ++ s ++ ">").toList := by
  simp [tag, Html.Item.source]

theorem source_nil : source [] = "".toList := rfl

theorem source_text_cons (s : String) (line : List Html.Item) :
    source (text s :: line) = s.toList ++ source line := rfl

theorem source_tag_cons (s : String) (line : List Html.Item) :
    source (tag s :: line) = ("<" ++ s ++ ">").toList ++ source line := by
  rw [source, List.flatMap_cons, source_tag]
  rfl

theorem source_intercalate (separator : List Html.Item) (lines : List (List Html.Item)) :
    source (separator.intercalate lines) = (source separator).intercalate (lines.map source) := by
  induction lines with
  | nil => rfl
  | cons line lines ih =>
    cases lines with
    | nil => simp [source]
    | cons next lines =>
      simp only [source, List.map_cons, List.intercalate_cons_cons, List.flatMap_append] at ih ⊢
      rw [ih]

theorem source_rowValue (value : String) :
    source [text "          ", tag "td style=\"padding:8px\"", text value, tag "/td", tag "/tr"] =
      ("          <td style=\"padding:8px\">" ++ value ++ "</td></tr>").toList := by
  have hbefore : "          <td style=\"padding:8px\">" =
      "          " ++ ("<" ++ "td style=\"padding:8px\"" ++ ">") := rfl
  have hafter : "</td></tr>" = "<" ++ "/td" ++ ">" ++ ("<" ++ "/tr" ++ ">" ++ "") := rfl
  rw [hbefore, hafter]
  simp only [source_text_cons, source_tag_cons, source_nil, String.toList_append,
    List.append_assoc]

theorem source_greeting (customerName : String) :
    source [text "    ", tag "p", text "Hi ", tag "strong", text customerName, tag "/strong",
        text ",", tag "/p"] =
      ("    <p>Hi <strong>" ++ customerName ++ "</strong>,</p>").toList := by
  have hbefore : "    <p>Hi <strong>" =
      "    " ++ ("<" ++ "p" ++ ">" ++ ("Hi " ++ ("<" ++ "strong" ++ ">"))) := rfl
  have hafter : "</strong>,</p>" =
      "<" ++ "/strong" ++ ">" ++ ("," ++ ("<" ++ "/p" ++ ">" ++ "")) := rfl
  rw [hbefore, hafter]
  simp only [source_text_cons, source_tag_cons, source_nil, String.toList_append,
    List.append_assoc]

theorem source_templateNote (data : ResolutionJob) :
    source (templateNote (givenNote data)) =
      (((data.resolutionNote.filter fun note => note ≠ "").map noteRow).getD "").toList := by
  change source (templateNote (givenNote data)) = (((givenNote data).map noteRow).getD "").toList
  cases givenNote data with
  | none => rfl
  | some note =>
    have hlabel : source [text "      ", tag "tr",
        tag "td style=\"padding:8px;background:#f9fafb;font-weight:600\"", text "Note", tag "/td"] =
        "      <tr><td style=\"padding:8px;background:#f9fafb;font-weight:600\">Note</td>".toList := by
      simp only [source_text_cons, source_tag_cons, source_nil, ← String.toList_append,
        String.toList_inj]
      rfl
    simp only [templateNote, Option.map_some, Option.getD_some, noteRow, String.toList_intercalate]
    rw [source_text_cons, source_intercalate, templateRow]
    simp only [List.map_cons, List.map_nil, hlabel, source_rowValue]
    rfl

theorem source_noteLine (data : ResolutionJob) :
    source (text "      " :: templateNote (givenNote data)) = ("      " ++
      ((data.resolutionNote.filter fun note => note ≠ "").map noteRow).getD "").toList := by
  rw [source_text_cons, source_templateNote, String.toList_append]

theorem source_pair (s : String) (cs : List Char) :
    source [text s, .text cs] = (s ++ String.ofList cs).toList := by
  simp [source, text, Html.Item.source]

theorem source_template (locale : Locale) (data : ResolutionJob) :
    source ([text "\n"].intercalate (template locale data)) =
      (buildHtmlBody locale data).toList := by
  rw [source_intercalate, buildHtmlBody, String.toList_intercalate]
  refine congrArg (List.intercalate "\n".toList) ?_
  simp only [template, templateRow, List.cons_append, List.nil_append, List.map_cons,
    List.map_nil, List.cons.injEq, source_greeting, source_rowValue, source_noteLine, source_pair,
    and_true, true_and]
  and_intros
  all_goals
    simp only [source_text_cons, source_tag_cons, source_nil, ← String.toList_append,
      String.toList_inj]
  all_goals rfl

variable {references : Html.References} {locale : Locale} {data : ResolutionJob} {now : Time}

theorem inert_toList {s : String} {cs : List Char} (h : s = String.ofList cs)
    (hinert : Html.inert cs = true) : Html.inert s.toList = true := by
  rw [h, String.toList_ofList]
  exact hinert

theorem inert_text (id : Uuid) : Html.inert id.text = true := by
  have hdigit : ∀ d < 16, Nat.digitChar d ≠ '<' ∧ Nat.digitChar d ≠ '&' := by decide
  have hhex : ∀ c ∈ id.hex, c ≠ '<' ∧ c ≠ '&' := by
    intro c hc
    obtain ⟨i, -, rfl⟩ := List.mem_map.mp hc
    exact hdigit _ (Nat.mod_lt _ (by decide))
  have htext : ∀ c ∈ id.text, c = '-' ∨ c ∈ id.hex := by
    intro c hc
    simp only [Uuid.text, List.mem_append, List.mem_cons] at hc
    grind [List.mem_of_mem_take, List.mem_of_mem_drop]
  simp only [Html.inert, List.all_eq_true, Bool.and_eq_true, decide_eq_true_eq]
  intro c hc
  obtain rfl | hc := htext c hc
  · decide
  · exact hhex c hc

theorem allPlain_template (hlocale : Html.inert (locale data.resolvedAt).toList = true) :
    Html.AllPlain references ([text "\n"].intercalate (template locale data)) ↔
      Html.plain references data.customerName.toList = true ∧
      Html.plain references data.subject.toList = true ∧
      Html.plain references data.agentName.toList = true ∧
      ∀ note, givenNote data = some note → Html.plain references note.toList = true := by
  have hid := inert_text data.conversationId
  cases hnote : givenNote data
  all_goals
    simp only [template, templateRow, templateNote, hnote, List.cons_append, List.nil_append,
      List.intercalate_cons_cons, List.intercalate_singleton, text, tag]
    simp (disch := first | assumption | exact inert_toList rfl (by decide) | fail) only
      [Html.allPlain_nil, Html.allPlain_tag, Html.allPlain_inert, Html.allPlain_text]
    simp

theorem isTag_toList {s : String} {cs : List Char} (h : s = String.ofList cs)
    (htag : Html.isTag cs = true) : Html.isTag s.toList = true := by
  rw [h, String.toList_ofList]
  exact htag

theorem allTags_template : Html.AllTags ([text "\n"].intercalate (template locale data)) := by
  cases hnote : givenNote data
  all_goals
    simp only [template, templateRow, templateNote, hnote, List.cons_append, List.nil_append,
      List.intercalate_cons_cons, List.intercalate_singleton, text, tag]
    simp (disch := exact isTag_toList rfl (by decide)) only
      [Html.allTags_nil, Html.allTags_tag, Html.allTags_text]

theorem read_template : Html.read references (buildHtmlBody locale data).toList =
    some (templateBody locale data) ↔
      Html.AllPlain references ([text "\n"].intercalate (template locale data)) := by
  rw [← source_template]
  exact Html.read_source_iff allTags_template

variable (references locale data now) in
structure KeepsStructure : Prop where
  mailbox : Address.mailboxList (buildEmailEnvelope locale data now).toAddress =
    some [⟨some data.customerName, data.customerEmail⟩]
  html : Html.read references (buildEmailEnvelope locale data now).html.toList =
    some (templateBody locale data)

variable (references) in
/-- A payload whose values need no escaping. -/
structure NeedsNoEscape (data : ResolutionJob) : Prop where
  quotable : ∀ c ∈ data.customerName.toList, Address.quotable c = true
  customerName : Html.plain references data.customerName.toList = true
  subject : Html.plain references data.subject.toList = true
  agentName : Html.plain references data.agentName.toList = true
  note : ∀ note, givenNote data = some note → Html.plain references note.toList = true

theorem keepsStructure_iff (hemail : Address.IsAddress data.customerEmail)
    (hlocale : Html.inert (locale data.resolvedAt).toList = true) :
    KeepsStructure references locale data now ↔ NeedsNoEscape references data := by
  have hto := @Address.mailboxList_named_iff data.customerName data.customerEmail hemail
  have hhtml := read_template.trans (@allPlain_template references locale data hlocale)
  constructor
  · rintro ⟨hmailbox, hbody⟩
    obtain ⟨hname, hsubject, hagent, hnote⟩ := hhtml.mp hbody
    exact ⟨hto.mp hmailbox, hname, hsubject, hagent, hnote⟩
  · rintro ⟨hquotable, hname, hsubject, hagent, hnote⟩
    exact ⟨hto.mpr hquotable, hhtml.mpr ⟨hname, hsubject, hagent, hnote⟩⟩

namespace Sample

def known : Html.References where
  read
    | 'a' :: 'm' :: 'p' :: ';' :: rest => some (['&'], rest)
    | 'l' :: 't' :: ';' :: rest => some (['<'], rest)
    | _ => none
  shorter {cs expansion rest} h := by
    split at h
    · obtain ⟨rfl, rfl⟩ := Prod.mk.inj (Option.some.inj h)
      simp only [List.length_cons, List.length_nil]
      omega
    · obtain ⟨rfl, rfl⟩ := Prod.mk.inj (Option.some.inj h)
      simp only [List.length_cons, List.length_nil]
      omega
    · cases h

def longDate : Locale := fun _ => "March 4, 2025 at 9:30 AM"

def job (customerName subject : String) : ResolutionJob where
  conversationId := ⟨7⟩
  tenantId := ⟨1⟩
  customerEmail := "jo@mail.test"
  customerName := customerName
  subject := subject
  resolvedAt := none
  agentId := ⟨2⟩
  agentName := "Ann"
  resolutionNote := some "It prints, 3 < 4 & all."

theorem isAddress : Address.IsAddress "jo@mail.test" := by
  refine ⟨_, rfl, ?_, ?_⟩
  · decide
  · decide

end Sample

theorem keepsStructure_ordinary :
    KeepsStructure Sample.known Sample.longDate (Sample.job "Jo Doe" "R&D printer") 0 := by
  refine (keepsStructure_iff Sample.isAddress (by decide)).mpr ⟨?_, ?_, ?_, ?_, ?_⟩
  · have hquotable : "Jo Doe".toList.all Address.quotable = true := by decide
    exact List.all_eq_true.mp hquotable
  · decide
  · decide
  · decide
  · intro note hnote
    obtain ⟨hgiven, -⟩ := Option.filter_eq_some_iff.mp hnote
    obtain rfl := Option.some.inj hgiven
    decide

theorem mailboxList_quotation : Address.mailboxList (buildEmailEnvelope Sample.longDate
    (Sample.job "Jo\" <eve@mail.test>, \"Jo" "Printer") 0).toAddress =
      some [⟨some "Jo", "eve@mail.test"⟩, ⟨some "Jo", "jo@mail.test"⟩] := by
  decide +kernel

theorem structure_broken :
    (¬∀ (locale : Locale) (data : ResolutionJob) (now : Time),
      data.customerName ≠ "" → data.subject ≠ "" → Address.IsAddress data.customerEmail →
      Html.inert (locale data.resolvedAt).toList = true →
      Address.mailboxList (buildEmailEnvelope locale data now).toAddress =
        some [⟨some data.customerName, data.customerEmail⟩]) ∧
    ¬∀ (references : Html.References) (locale : Locale) (data : ResolutionJob) (now : Time),
      data.customerName ≠ "" → data.subject ≠ "" → Address.IsAddress data.customerEmail →
      Html.inert (locale data.resolvedAt).toList = true →
      Html.read references (buildEmailEnvelope locale data now).html.toList =
        some (templateBody locale data) := by
  refine ⟨fun h => ?_, fun h => ?_⟩
  · have hone := h Sample.longDate (Sample.job "Jo\" <eve@mail.test>, \"Jo" "Printer") 0
      (by decide) (by decide) Sample.isAddress (by decide)
    rw [mailboxList_quotation] at hone
    simp at hone
  · have hread := h Sample.known Sample.longDate (Sample.job "Jo Doe" "Printer <img src=x>") 0
      (by decide) (by decide) Sample.isAddress (by decide)
    have hplain := (allPlain_template (by decide)).mp (read_template.mp hread)
    exact absurd hplain.2.1 (by decide)

end SupportApi.Workers
