import Mathlib.Data.List.Basic
import Mathlib.Data.List.TakeWhile

/-! Reading the text of a header field as a list of mailboxes, by the grammar of RFC 5322.  A field
that also names groups is not such a list. -/

namespace SupportApi.Lib.Address

def lineChar (c : Char) : Bool := c ≠ Char.ofNat 0 && c ≠ '\r' && c ≠ '\n'

def isMark (c : Char) : Bool := c = '"' || c = '\\'

def quotable (c : Char) : Bool := lineChar c && !isMark c

def isAtext (c : Char) : Bool :=
  c.isAlphanum || 127 < c.toNat || "!#$%&'*+-/=?^_`\x7b|\x7d~".toList.contains c

/-- What a quoted string consists of: characters for themselves, and characters after a
backslash. -/
inductive QContent
  | text (c : Char) (h : quotable c = true)
  | pair (c : Char) (h : lineChar c = true)
  deriving DecidableEq

def QContent.char : QContent → Char
  | .text c _ => c
  | .pair c _ => c

def QContent.source : QContent → List Char
  | .text c _ => [c]
  | .pair c _ => ['\\', c]

inductive Special
  | lt
  | gt
  | comma
  | colon
  | semicolon
  | dot
  | atSign
  deriving DecidableEq

def Special.char : Special → Char
  | .lt => '<'
  | .gt => '>'
  | .comma => ','
  | .colon => ':'
  | .semicolon => ';'
  | .dot => '.'
  | .atSign => '@'

def Special.ofChar (c : Char) : Option Special :=
  [Special.lt, .gt, .comma, .colon, .semicolon, .dot, .atSign].find? fun s => s.char = c

inductive Token
  | quoted (content : List QContent)
  | atom (text : List { c : Char // isAtext c = true })
  | special (s : Special)
  deriving DecidableEq

def Token.source : Token → List Char
  | .quoted content => '"' :: (content.flatMap QContent.source ++ ['"'])
  | .atom text => text.map Subtype.val
  | .special s => [s.char]

/-- What a token says: quotes and the backslashes between them are not part of it. -/
def Token.content : Token → List Char
  | .quoted content => content.map QContent.char
  | .atom text => text.map Subtype.val
  | .special s => [s.char]

def Token.isWord : Token → Bool
  | .quoted _ | .atom _ => true
  | .special _ => false

/-- Where the reader is; comments nest. -/
inductive Mode
  | plain
  | atom (text : List { c : Char // isAtext c = true })
  | quoted (content : List QContent)
  | escaped (content : List QContent)
  | comment (depth : Nat)
  | commentEscaped (depth : Nat)

def delimiter (read : List Token) (c : Char) : Option (Mode × List Token) :=
  if c = '"' then some (.quoted [], read)
  else if c = '(' then some (.comment 0, read)
  else if c = ' ' ∨ c = '\t' then some (.plain, read)
  else (Special.ofChar c).map fun s => (.plain, read ++ [.special s])

def step : Mode → Char → Option (Mode × List Token)
  | .plain, c => if h : isAtext c then some (.atom [⟨c, h⟩], []) else delimiter [] c
  | .atom text, c =>
    if h : isAtext c then some (.atom (text ++ [⟨c, h⟩]), []) else delimiter [.atom text] c
  | .quoted content, c =>
    if c = '"' then some (.plain, [.quoted content])
    else if c = '\\' then some (.escaped content, [])
    else if h : quotable c then some (.quoted (content ++ [.text c h]), [])
    else none
  | .escaped content, c =>
    if h : lineChar c then some (.quoted (content ++ [.pair c h]), []) else none
  | .comment depth, c =>
    if c = ')' then some (if depth = 0 then .plain else .comment (depth - 1), [])
    else if c = '(' then some (.comment (depth + 1), [])
    else if c = '\\' then some (.commentEscaped depth, [])
    else if lineChar c then some (.comment depth, [])
    else none
  | .commentEscaped depth, c => if lineChar c then some (.comment depth, []) else none

def run : Mode → List Char → Option (Mode × List Token)
  | mode, [] => some (mode, [])
  | mode, c :: cs =>
    (step mode c).bind fun (next, tokens) =>
      (run next cs).map fun (last, rest) => (last, tokens ++ rest)

def finish : Mode → Option (List Token)
  | .plain => some []
  | .atom text => some [.atom text]
  | _ => none

def lex (cs : List Char) : Option (List Token) :=
  (run .plain cs).bind fun (mode, tokens) => (finish mode).map (tokens ++ ·)

/-- A folded line continues with a blank. -/
def unfolded : List Char → List Char
  | '\r' :: '\n' :: ' ' :: cs => ' ' :: unfolded cs
  | '\r' :: '\n' :: '\t' :: cs => '\t' :: unfolded cs
  | c :: cs => c :: unfolded cs
  | [] => []

structure Mailbox where
  displayName : Option String
  address : String
  deriving DecidableEq

def dotAtom : List Token → Bool
  | [.atom _] => true
  | .atom _ :: .special .dot :: rest => dotAtom rest
  | _ => false

def localPart : List Token → Bool
  | [.quoted _] => true
  | tokens => dotAtom tokens

def addrSpec (tokens : List Token) : Bool :=
  localPart (tokens.takeWhile (· ≠ .special .atSign)) &&
    dotAtom (tokens.dropWhile (· ≠ .special .atSign)).tail

def phraseText : List Token → List Char
  | [] => []
  | [word] => word.content
  | word :: words => word.content ++ ' ' :: phraseText words

def phrase (words : List Token) : Option String :=
  if words = [] then none else some (String.ofList (phraseText words))

def addressText (tokens : List Token) : String := String.ofList (tokens.flatMap Token.source)

def mailbox (tokens : List Token) : Option Mailbox :=
  match tokens.dropWhile Token.isWord with
  | .special .lt :: rest =>
    let spec := rest.takeWhile (· ≠ .special .gt)
    if addrSpec spec ∧ rest.dropWhile (· ≠ .special .gt) = [.special .gt] then
      some ⟨phrase (tokens.takeWhile Token.isWord), addressText spec⟩
    else none
  | _ => if addrSpec tokens then some ⟨none, addressText tokens⟩ else none

def separated : List Token → List (List Token)
  | [] => [[]]
  | token :: tokens =>
    if token = .special .comma then [] :: separated tokens
    else
      match separated tokens with
      | [] => [[token]]
      | first :: rest => (token :: first) :: rest

def mailboxes : List (List Token) → Option (List Mailbox)
  | [] => some []
  | tokens :: rest =>
    (mailbox tokens).bind fun first => (mailboxes rest).map fun others => first :: others

def mailboxList (s : String) : Option (List Mailbox) :=
  (lex (unfolded s.toList)).bind fun tokens => mailboxes (separated tokens)

/-- The text is an address, with nothing around it or between its parts. -/
def IsAddress (s : String) : Prop :=
  ∃ tokens, lex s.toList = some tokens ∧ addrSpec tokens = true ∧
    tokens.flatMap Token.source = s.toList

theorem quotable_of_isAtext {c : Char} (h : isAtext c = true) : quotable c = true := by
  by_contra hc
  simp only [quotable, lineChar, isMark, Bool.and_eq_true, Bool.not_eq_true',
    decide_eq_true_eq, Bool.or_eq_false_iff, decide_eq_false_iff_not, not_and_or, not_not,
    ne_eq] at hc
  rcases hc with ((rfl | rfl) | rfl) | rfl | rfl <;> exact absurd h (by decide)

theorem Special.quotable_char (s : Special) : quotable s.char = true := by
  cases s <;> decide

theorem QContent.lineChar_char (q : QContent) : lineChar q.char = true := by
  cases q with
  | text c h => exact (Bool.and_eq_true_iff.mp h).1
  | pair c h => exact h

theorem Token.lineChar_content (t : Token) : ∀ c ∈ t.content, lineChar c = true := by
  cases t with
  | quoted content =>
    intro c hc
    obtain ⟨q, -, rfl⟩ := List.mem_map.mp hc
    exact q.lineChar_char
  | atom text =>
    intro c hc
    obtain ⟨a, -, rfl⟩ := List.mem_map.mp hc
    exact (Bool.and_eq_true_iff.mp (quotable_of_isAtext a.property)).1
  | special s =>
    intro c hc
    rw [Token.content, List.mem_singleton] at hc
    rw [hc]
    exact (Bool.and_eq_true_iff.mp s.quotable_char).1

/-- A mark that a name says costs two in its source, and a quoted string costs two more. -/
def marks (cs : List Char) : Nat := cs.countP isMark

@[simp] theorem marks_nil : marks [] = 0 := rfl

@[simp] theorem marks_append (cs cs' : List Char) : marks (cs ++ cs') = marks cs + marks cs' :=
  List.countP_append

@[simp] theorem marks_cons (c : Char) (cs : List Char) :
    marks (c :: cs) = marks cs + if isMark c then 1 else 0 := List.countP_cons

theorem marks_eq_zero {cs : List Char} : marks cs = 0 ↔ ∀ c ∈ cs, isMark c = false := by
  simp only [marks, List.countP_eq_zero, Bool.not_eq_true]

theorem isMark_of_quotable {c : Char} (h : quotable c = true) : isMark c = false := by
  simp only [quotable, Bool.and_eq_true, Bool.not_eq_true'] at h
  exact h.2

theorem marks_atom (text : List { c : Char // isAtext c = true }) :
    marks (text.map Subtype.val) = 0 := by
  rw [marks_eq_zero]
  intro c hc
  obtain ⟨a, -, rfl⟩ := List.mem_map.mp hc
  exact isMark_of_quotable (quotable_of_isAtext a.property)

theorem marks_special (s : Special) : marks [s.char] = 0 := by
  cases s <;> decide

theorem marks_quoted_content (content : List QContent) :
    2 * marks (content.map QContent.char) ≤ marks (content.flatMap QContent.source) := by
  induction content with
  | nil => exact Nat.le_refl 0
  | cons q content ih =>
    cases q with
    | text c h =>
      simp only [List.map_cons, List.flatMap_cons, QContent.char, QContent.source, marks_cons,
        marks_append, marks_nil, isMark_of_quotable h, Bool.false_eq_true, if_false]
      omega
    | pair c h =>
      have hbackslash : isMark '\\' = true := by decide
      simp only [List.map_cons, List.flatMap_cons, QContent.char, QContent.source, marks_cons,
        marks_append, marks_nil, hbackslash, if_true]
      split <;> omega

theorem marks_content (t : Token) : 2 * marks t.content ≤ marks t.source := by
  cases t with
  | quoted content =>
    have hcontent := marks_quoted_content content
    simp only [Token.content, Token.source, marks_cons, marks_append]
    omega
  | atom text =>
    simp only [Token.content, marks_atom]
    omega
  | special s =>
    simp only [Token.content, marks_special]
    omega

theorem marks_quoted (content : List QContent) :
    marks (Token.quoted content).source = 2 + marks (content.flatMap QContent.source) := by
  have hquote : isMark '"' = true := by decide
  simp only [Token.source, marks_cons, marks_append, marks_nil, hquote, if_true]
  omega

def Mode.pending : Mode → Nat
  | .quoted content => 1 + marks (content.flatMap QContent.source)
  | .escaped content => 2 + marks (content.flatMap QContent.source)
  | _ => 0

theorem delimiter_marks {read tokens : List Token} {c : Char} {mode : Mode}
    (h : delimiter read c = some (mode, tokens)) :
    marks (tokens.flatMap Token.source) + mode.pending ≤
      marks (read.flatMap Token.source) + marks [c] := by
  unfold delimiter at h
  split_ifs at h with hquote hcomment hblank
  · cases h
    subst hquote
    exact Nat.le_refl _
  · cases h
    exact Nat.le_add_right _ _
  · cases h
    exact Nat.le_add_right _ _
  · obtain ⟨s, -, hs⟩ := Option.map_eq_some_iff.mp h
    cases hs
    simp only [List.flatMap_append, List.flatMap_cons, List.flatMap_nil, List.append_nil,
      Token.source, marks_append, marks_special, Mode.pending]
    omega

theorem step_marks {mode next : Mode} {c : Char} {tokens : List Token}
    (h : step mode c = some (next, tokens)) :
    marks (tokens.flatMap Token.source) + next.pending ≤ mode.pending + marks [c] := by
  cases mode with
  | plain =>
    simp only [step] at h
    split_ifs at h
    · cases h
      exact Nat.zero_le _
    · exact (delimiter_marks h).trans (Nat.le_refl _)
  | atom text =>
    simp only [step] at h
    split_ifs at h
    · cases h
      exact Nat.zero_le _
    · have hread := delimiter_marks h
      simp only [List.flatMap_cons, List.flatMap_nil, List.append_nil, Token.source,
        marks_atom] at hread
      exact hread
  | quoted content =>
    simp only [step] at h
    split_ifs at h with hquote hbackslash
    · cases h
      subst hquote
      have hclosed := marks_quoted content
      have hmark : marks ['"'] = 1 := by decide
      simp only [List.flatMap_cons, List.flatMap_nil, List.append_nil, Mode.pending, hmark]
      omega
    · cases h
      subst hbackslash
      have hmark : marks ['\\'] = 1 := by decide
      simp only [List.flatMap_nil, marks_nil, Mode.pending, hmark]
      omega
    · cases h
      simp only [List.flatMap_nil, marks_nil, Mode.pending, List.flatMap_append,
        List.flatMap_cons, List.append_nil, QContent.source, marks_append]
      omega
  | escaped content =>
    simp only [step] at h
    split_ifs at h
    cases h
    have hbackslash : isMark '\\' = true := by decide
    simp only [List.flatMap_nil, marks_nil, Mode.pending, List.flatMap_append, List.flatMap_cons,
      List.append_nil, QContent.source, marks_append, marks_cons, hbackslash, if_true]
    omega
  | comment depth =>
    simp only [step] at h
    split_ifs at h <;> cases h <;> exact Nat.zero_le _
  | commentEscaped depth =>
    simp only [step] at h
    split_ifs at h
    cases h
    exact Nat.zero_le _

theorem run_cons_some {mode last : Mode} {c : Char} {cs : List Char} {tokens : List Token} :
    run mode (c :: cs) = some (last, tokens) ↔ ∃ next first rest,
      step mode c = some (next, first) ∧ run next cs = some (last, rest) ∧
        tokens = first ++ rest := by
  rw [run, Option.bind_eq_some_iff]
  constructor
  · rintro ⟨⟨next, first⟩, hstep, hrun⟩
    obtain ⟨⟨last', rest⟩, hcs, heq⟩ := Option.map_eq_some_iff.mp hrun
    cases heq
    exact ⟨next, first, rest, hstep, hcs, rfl⟩
  · rintro ⟨next, first, rest, hstep, hrun, rfl⟩
    refine ⟨(next, first), hstep, ?_⟩
    simp only [hrun, Option.map_some]

theorem run_marks {mode last : Mode} {cs : List Char} {tokens : List Token}
    (h : run mode cs = some (last, tokens)) :
    marks (tokens.flatMap Token.source) + last.pending ≤ mode.pending + marks cs := by
  induction cs generalizing mode tokens with
  | nil =>
    cases h
    simp
  | cons c cs ih =>
    obtain ⟨next, first, rest, hstep, hrun, rfl⟩ := run_cons_some.mp h
    have hfirst := step_marks hstep
    have hrest := ih hrun
    have hcons : marks (c :: cs) = marks [c] + marks cs := marks_append [c] cs
    rw [List.flatMap_append, marks_append, hcons]
    omega

theorem lex_some {cs : List Char} {tokens : List Token} :
    lex cs = some tokens ↔ ∃ mode read last, run .plain cs = some (mode, read) ∧
      finish mode = some last ∧ tokens = read ++ last := by
  rw [lex, Option.bind_eq_some_iff]
  constructor
  · rintro ⟨⟨mode, read⟩, hrun, hfinish⟩
    obtain ⟨last, hlast, rfl⟩ := Option.map_eq_some_iff.mp hfinish
    exact ⟨mode, read, last, hrun, hlast, rfl⟩
  · rintro ⟨mode, read, last, hrun, hlast, rfl⟩
    refine ⟨(mode, read), hrun, ?_⟩
    simp only [hlast, Option.map_some]

theorem finish_marks {mode : Mode} {tokens : List Token} (h : finish mode = some tokens) :
    marks (tokens.flatMap Token.source) = 0 := by
  cases mode with
  | plain =>
    cases h
    rfl
  | atom text =>
    cases h
    simp only [List.flatMap_cons, List.flatMap_nil, List.append_nil, Token.source, marks_atom]
  | quoted _ | escaped _ | comment _ | commentEscaped _ => cases h

theorem lex_marks {cs : List Char} {tokens : List Token} (h : lex cs = some tokens) :
    marks (tokens.flatMap Token.source) ≤ marks cs := by
  obtain ⟨mode, read, last, hrun, hfinish, rfl⟩ := lex_some.mp h
  have hread := run_marks hrun
  have hlast := finish_marks hfinish
  rw [List.flatMap_append, marks_append, hlast]
  simp only [Mode.pending] at hread
  omega

theorem run_quoted_head {mode last : Mode} {cs : List Char} {read rest : List Token}
    (hmode : ∃ content, mode = .quoted content ∨ mode = .escaped content)
    (hrun : run mode cs = some (last, read)) (hfinish : finish last = some rest) :
    ∃ content tokens, read = .quoted content :: tokens := by
  induction cs generalizing mode read with
  | nil =>
    cases hrun
    obtain ⟨content, rfl | rfl⟩ := hmode <;> cases hfinish
  | cons c cs ih =>
    obtain ⟨next, first, others, hstep, hothers, rfl⟩ := run_cons_some.mp hrun
    obtain ⟨content, rfl | rfl⟩ := hmode
    · simp only [step] at hstep
      split_ifs at hstep <;> cases hstep
      · exact ⟨content, others, rfl⟩
      · exact ih ⟨content, .inr rfl⟩ hothers
      · exact ih ⟨_, .inl rfl⟩ hothers
    · simp only [step] at hstep
      split_ifs at hstep
      cases hstep
      exact ih ⟨_, .inl rfl⟩ hothers

theorem lex_quote_head {cs : List Char} {tokens : List Token} (h : lex ('"' :: cs) = some tokens) :
    ∃ content rest, tokens = .quoted content :: rest := by
  obtain ⟨mode, read, last, hrun, hfinish, rfl⟩ := lex_some.mp h
  obtain ⟨next, first, rest, hstep, hrest, rfl⟩ := run_cons_some.mp hrun
  have hquote : step .plain '"' = some (.quoted [], []) := rfl
  rw [hquote] at hstep
  cases hstep
  obtain ⟨content, tokens, rfl⟩ := run_quoted_head ⟨[], .inl rfl⟩ hrest hfinish
  exact ⟨content, tokens ++ last, rfl⟩

theorem marks_phraseText (words : List Token) :
    marks (phraseText words) = marks (words.flatMap Token.content) := by
  have hblank : isMark ' ' = false := by decide
  induction words with
  | nil => rfl
  | cons word words ih =>
    cases words with
    | nil => simp [phraseText]
    | cons next words =>
      rw [phraseText, List.flatMap_cons, marks_append, marks_append, marks_cons, hblank, ih]
      · rfl
      · exact List.cons_ne_nil _ _

theorem lineChar_phraseText (words : List Token) :
    ∀ c ∈ phraseText words, lineChar c = true := by
  induction words with
  | nil => simp [phraseText]
  | cons word words ih =>
    cases words with
    | nil => exact word.lineChar_content
    | cons next words =>
      intro c hc
      rw [phraseText, List.mem_append, List.mem_cons] at hc
      · rcases hc with hc | rfl | hc
        · exact word.lineChar_content c hc
        · decide
        · exact ih c hc
      · exact List.cons_ne_nil _ _

theorem marks_contents (tokens : List Token) :
    2 * marks (tokens.flatMap Token.content) ≤ marks (tokens.flatMap Token.source) := by
  induction tokens with
  | nil => exact Nat.le_refl 0
  | cons token tokens ih =>
    have htoken := marks_content token
    simp only [List.flatMap_cons, marks_append]
    omega

theorem marks_quoted_phrase (content : List QContent) (words : List Token) :
    2 + 2 * marks (phraseText (.quoted content :: words)) ≤
      marks ((Token.quoted content :: words).flatMap Token.source) := by
  have hcontent := marks_quoted_content content
  have hwords := marks_contents words
  rw [marks_phraseText, List.flatMap_cons, List.flatMap_cons, marks_append, marks_append,
    marks_quoted]
  simp only [Token.content]
  omega

theorem mailbox_named {tokens : List Token} {name address : String}
    (h : mailbox tokens = some ⟨some name, address⟩) :
    ∃ spec, tokens = tokens.takeWhile Token.isWord ++ .special .lt :: (spec ++ [.special .gt]) ∧
      name.toList = phraseText (tokens.takeWhile Token.isWord) ∧
      address.toList = spec.flatMap Token.source := by
  have hbare : ∀ result, (if addrSpec tokens then some (Mailbox.mk none (addressText tokens))
      else none) = some result → result.displayName = none := by
    intro result hresult
    split_ifs at hresult
    cases hresult
    rfl
  have hsplit := List.takeWhile_append_dropWhile (p := Token.isWord) (l := tokens)
  unfold mailbox at h
  cases hrest : tokens.dropWhile Token.isWord with
  | nil =>
    rw [hrest] at h
    cases hbare _ h
  | cons token rest =>
    rw [hrest] at h hsplit
    cases token with
    | quoted content => cases hbare _ h
    | atom text => cases hbare _ h
    | special special =>
      cases special with
      | lt =>
        simp only at h
        split_ifs at h with hspec
        simp only [Option.some.injEq, Mailbox.mk.injEq] at h
        obtain ⟨hname, rfl⟩ := h
        refine ⟨rest.takeWhile (· ≠ .special .gt), ?_, ?_, ?_⟩
        · rw [← hspec.2, List.takeWhile_append_dropWhile, hsplit]
        · unfold phrase at hname
          split_ifs at hname
          cases hname
          exact String.toList_ofList
        · exact String.toList_ofList
      | gt | comma | colon | semicolon | dot | atSign => cases hbare _ h

theorem separated_ne_nil (tokens : List Token) : separated tokens ≠ [] := by
  cases tokens with
  | nil => exact List.cons_ne_nil _ _
  | cons token tokens =>
    rw [separated]
    split_ifs
    · exact List.cons_ne_nil _ _
    · cases separated tokens <;> exact List.cons_ne_nil _ _

theorem separated_singleton {tokens first : List Token} (h : separated tokens = [first]) :
    first = tokens := by
  induction tokens generalizing first with
  | nil =>
    cases h
    rfl
  | cons token tokens ih =>
    rw [separated] at h
    split_ifs at h
    · exact absurd (List.cons.inj h).2 (separated_ne_nil tokens)
    · cases hrest : separated tokens with
      | nil => exact absurd hrest (separated_ne_nil tokens)
      | cons next rest =>
        rw [hrest] at h
        obtain ⟨rfl, rfl⟩ := List.cons.inj h
        rw [ih hrest]

theorem separated_of_not_mem {tokens : List Token} (h : .special .comma ∉ tokens) :
    separated tokens = [tokens] := by
  induction tokens with
  | nil => rfl
  | cons token tokens ih =>
    rw [List.mem_cons, not_or] at h
    rw [separated, if_neg (Ne.symm h.1), ih h.2]

theorem mailboxes_singleton {parts : List (List Token)} {m : Mailbox} :
    mailboxes parts = some [m] ↔ ∃ tokens, parts = [tokens] ∧ mailbox tokens = some m := by
  cases parts with
  | nil => simp [mailboxes]
  | cons tokens rest =>
    cases rest with
    | nil =>
      simp only [mailboxes, List.cons.injEq, and_true, exists_eq_left']
      cases mailbox tokens <;> simp
    | cons next rest =>
      simp only [mailboxes, List.cons.injEq, List.cons_ne_nil, and_false, false_and, exists_false,
        iff_false]
      intro h
      obtain ⟨first, -, h⟩ := Option.bind_eq_some_iff.mp h
      obtain ⟨others, hothers, h⟩ := Option.map_eq_some_iff.mp h
      obtain ⟨second, -, hothers⟩ := Option.bind_eq_some_iff.mp hothers
      obtain ⟨more, -, rfl⟩ := Option.map_eq_some_iff.mp hothers
      cases h

theorem marks_unfolded (cs : List Char) : marks (unfolded cs) ≤ marks cs := by
  fun_induction unfolded cs with
  | case1 cs ih =>
    simp only [marks_cons]
    omega
  | case2 cs ih =>
    simp only [marks_cons]
    omega
  | case3 c cs _ _ ih =>
    simp only [marks_cons]
    omega
  | case4 => exact Nat.le_refl 0

theorem unfolded_of_lineChar {cs : List Char} (h : ∀ c ∈ cs, lineChar c = true) :
    unfolded cs = cs := by
  fun_induction unfolded cs with
  | case1 cs ih => exact absurd (h '\r' List.mem_cons_self) (by decide)
  | case2 cs ih => exact absurd (h '\r' List.mem_cons_self) (by decide)
  | case3 c cs _ _ ih => rw [ih fun d hd => h d (List.mem_cons_of_mem _ hd)]
  | case4 => rfl

def named (name address : String) : String := "\"" ++ name ++ "\" <" ++ address ++ ">"

theorem toList_named (name address : String) : (named name address).toList =
    '"' :: (name.toList ++ '"' :: ' ' :: '<' :: (address.toList ++ ['>'])) := by
  simp [named]

theorem marks_named (name address : String) :
    marks (named name address).toList = 2 + marks name.toList + marks address.toList := by
  have hquote : isMark '"' = true := by decide
  have hother : isMark ' ' = false ∧ isMark '<' = false ∧ isMark '>' = false := by decide
  simp only [toList_named, marks_cons, marks_append, marks_nil, hquote, hother, if_true,
    Bool.false_eq_true, if_false]
  omega

theorem quotable_of_mailboxList {name address : String}
    (h : mailboxList (named name address) = some [⟨some name, address⟩]) :
    ∀ c ∈ name.toList, quotable c = true := by
  obtain ⟨tokens, hlex, hmailboxes⟩ := Option.bind_eq_some_iff.mp h
  obtain ⟨first, hfirst, hmailbox⟩ := mailboxes_singleton.mp hmailboxes
  rw [separated_singleton hfirst] at hmailbox
  obtain ⟨spec, hspec, hname, haddress⟩ := mailbox_named hmailbox
  have hsource := (lex_marks hlex).trans (marks_unfolded _)
  rw [marks_named] at hsource
  rw [toList_named] at hlex
  obtain ⟨content, rest, rfl⟩ := lex_quote_head (show lex ('"' :: unfolded _) = some tokens from hlex)
  rw [List.takeWhile_cons_of_pos rfl] at hspec hname
  have hwords := marks_quoted_phrase content (rest.takeWhile Token.isWord)
  rw [← hname] at hwords
  rw [hspec] at hsource
  simp only [List.flatMap_append, List.flatMap_cons, List.flatMap_nil, marks_append, Token.source,
    marks_special, ← haddress] at hsource hwords
  have hnone : marks name.toList = 0 := by omega
  intro c hc
  have hline : lineChar c = true := lineChar_phraseText _ c (hname ▸ hc)
  have hmark : isMark c = false := marks_eq_zero.mp hnone c hc
  rw [quotable, hline, hmark]
  rfl

theorem run_append {mode next : Mode} {cs : List Char} {tokens : List Token}
    (h : run mode cs = some (next, tokens)) (rest : List Char) :
    run mode (cs ++ rest) = (run next rest).map fun (last, others) => (last, tokens ++ others) := by
  induction cs generalizing mode tokens with
  | nil =>
    cases h
    exact Option.map_id'.symm
  | cons c cs ih =>
    obtain ⟨stepped, first, others, hstep, hothers, rfl⟩ := run_cons_some.mp h
    rw [List.cons_append, run, hstep, Option.bind_some]
    simp only [ih hothers, Option.map_map, List.append_assoc]
    rfl

theorem run_quoted {name : List Char} (h : ∀ c ∈ name, quotable c = true)
    (content : List QContent) (rest : List Char) :
    ∃ said : List QContent, said.map QContent.char = name ∧
      run (.quoted content) (name ++ '"' :: rest) =
        (run .plain rest).map fun (last, tokens) =>
          (last, .quoted (content ++ said) :: tokens) := by
  induction name generalizing content with
  | nil =>
    refine ⟨[], rfl, ?_⟩
    rw [List.nil_append, run, List.append_nil]
    rfl
  | cons c name ih =>
    have hc : quotable c = true := h c List.mem_cons_self
    obtain ⟨said, hsaid, hrun⟩ := ih (fun d hd => h d (List.mem_cons_of_mem _ hd))
      (content ++ [.text c hc])
    refine ⟨.text c hc :: said, by rw [List.map_cons, hsaid]; rfl, ?_⟩
    have hne : c ≠ '"' ∧ c ≠ '\\' := by
      constructor <;> rintro rfl <;> exact absurd hc (by decide)
    have hstep : step (.quoted content) c = some (.quoted (content ++ [.text c hc]), []) := by
      simp only [step, if_neg hne.1, if_neg hne.2, dif_pos hc]
    rw [List.cons_append, run, hstep, Option.bind_some]
    simp only [hrun, Option.map_map, List.append_assoc, List.singleton_append]
    rfl

theorem step_gt {mode : Mode} {last : List Token} (h : finish mode = some last) :
    step mode '>' = some (.plain, last ++ [.special .gt]) := by
  have hgt : isAtext '>' = false := by decide
  cases mode with
  | plain =>
    cases h
    rfl
  | atom text =>
    cases h
    simp only [step, hgt, Bool.false_eq_true, dif_neg, not_false_eq_true]
    rfl
  | quoted _ | escaped _ | comment _ | commentEscaped _ => cases h

theorem run_address {address : List Char} {tokens : List Token} (h : lex address = some tokens) :
    run .plain (address ++ ['>']) = some (.plain, tokens ++ [.special .gt]) := by
  obtain ⟨mode, read, last, hrun, hfinish, rfl⟩ := lex_some.mp h
  rw [run_append hrun, run, step_gt hfinish]
  simp only [run, Option.bind_some, Option.map_some, List.append_nil, List.append_assoc]

theorem dotAtom_mem {tokens : List Token} (h : dotAtom tokens = true) :
    .special .comma ∉ tokens ∧ .special .gt ∉ tokens := by
  fun_induction dotAtom tokens with
  | case1 text => simp
  | case2 text rest ih => simpa using ih h
  | case3 => cases h

theorem localPart_mem {tokens : List Token} (h : localPart tokens = true) :
    .special .comma ∉ tokens ∧ .special .gt ∉ tokens := by
  by_cases hdot : dotAtom tokens = true
  · exact dotAtom_mem hdot
  · cases tokens with
    | nil => simp
    | cons token rest =>
      cases rest with
      | nil =>
        cases token with
        | quoted content => simp
        | atom text => exact absurd h hdot
        | special s => exact absurd h hdot
      | cons next rest => cases token <;> exact absurd h hdot

theorem addrSpec_mem {tokens : List Token} (h : addrSpec tokens = true) :
    .special .comma ∉ tokens ∧ .special .gt ∉ tokens := by
  obtain ⟨hlocal, hdomain⟩ := Bool.and_eq_true_iff.mp h
  have hsplit := List.takeWhile_append_dropWhile (p := (· ≠ Token.special .atSign)) (l := tokens)
  cases hrest : tokens.dropWhile (· ≠ .special .atSign) with
  | nil =>
    rw [hrest] at hdomain
    cases hdomain
  | cons token domain =>
    have htoken : token = .special .atSign := by
      have hhead := List.head?_dropWhile_not (· ≠ Token.special .atSign) tokens
      rw [hrest] at hhead
      simpa using hhead
    rw [hrest] at hdomain hsplit
    rw [← hsplit, htoken]
    have hleft := localPart_mem hlocal
    have hright := dotAtom_mem hdomain
    simp only [List.mem_append, List.mem_cons, not_or, List.tail_cons] at hright ⊢
    exact ⟨⟨hleft.1, by simp, hright.1⟩, hleft.2, by simp, hright.2⟩

theorem mailbox_address {words tokens : List Token} (hwords : ∀ t ∈ words, t.isWord = true)
    (h : addrSpec tokens = true) :
    mailbox (words ++ .special .lt :: (tokens ++ [.special .gt])) =
      some ⟨phrase words, addressText tokens⟩ := by
  have htokens : ∀ t ∈ tokens, decide (t ≠ .special .gt) = true := by
    intro t ht
    exact decide_eq_true fun hgt => (addrSpec_mem h).2 (hgt ▸ ht)
  have htake : (tokens ++ [Token.special .gt]).takeWhile (· ≠ .special .gt) = tokens := by
    rw [List.takeWhile_append_of_pos htokens]
    exact List.append_nil tokens
  have hdrop : (tokens ++ [Token.special .gt]).dropWhile (· ≠ .special .gt) = [.special .gt] := by
    rw [List.dropWhile_append_of_pos htokens]
    rfl
  unfold mailbox
  rw [List.dropWhile_append_of_pos hwords, List.takeWhile_append_of_pos hwords,
    List.dropWhile_cons_of_neg (by decide), List.takeWhile_cons_of_neg (by decide),
    List.append_nil]
  simp only [htake, hdrop]
  rw [if_pos ⟨h, trivial⟩]

theorem Token.lineChar_source (t : Token) : ∀ c ∈ t.source, lineChar c = true := by
  cases t with
  | quoted content =>
    intro c hc
    rw [Token.source, List.mem_cons, List.mem_append, List.mem_flatMap, List.mem_singleton] at hc
    rcases hc with rfl | ⟨q, -, hq⟩ | rfl
    · decide
    · cases q with
      | text d h =>
        rw [List.mem_singleton.mp hq]
        exact (Bool.and_eq_true_iff.mp h).1
      | pair d h =>
        simp only [QContent.source, List.mem_cons, List.not_mem_nil, or_false] at hq
        rcases hq with rfl | rfl
        · decide
        · exact h
    · decide
  | atom text => exact (Token.atom text).lineChar_content
  | special s => exact (Token.special s).lineChar_content

theorem lineChar_named {name address : String} (haddress : IsAddress address)
    (hname : ∀ c ∈ name.toList, quotable c = true) :
    ∀ c ∈ (named name address).toList, lineChar c = true := by
  obtain ⟨tokens, -, -, hsource⟩ := haddress
  have haddress : ∀ c ∈ address.toList, lineChar c = true := by
    intro c hc
    rw [← hsource] at hc
    obtain ⟨t, -, ht⟩ := List.mem_flatMap.mp hc
    exact t.lineChar_source c ht
  intro c hc
  simp only [toList_named, List.mem_cons, List.mem_append, List.not_mem_nil, or_false] at hc
  rcases hc with rfl | hc | rfl | rfl | rfl | hc | rfl
  · decide
  · exact (Bool.and_eq_true_iff.mp (hname c hc)).1
  · decide
  · decide
  · decide
  · exact haddress c hc
  · decide

/-- A quoted name and an address are read as one mailbox, with this name and address, if and only
if the characters of the name stand for themselves. -/
theorem mailboxList_named_iff {name address : String} (h : IsAddress address) :
    mailboxList (named name address) = some [⟨some name, address⟩] ↔
      ∀ c ∈ name.toList, quotable c = true := by
  refine ⟨quotable_of_mailboxList, fun hname => ?_⟩
  have hline : ∀ c ∈ (named name address).toList, lineChar c = true := lineChar_named h hname
  obtain ⟨tokens, hlex, haddr, hsource⟩ := h
  obtain ⟨said, hsaid, hrun⟩ := run_quoted hname [] (' ' :: '<' :: (address.toList ++ ['>']))
  have hrest : run .plain (' ' :: '<' :: (address.toList ++ ['>'])) =
      some (.plain, .special .lt :: (tokens ++ [.special .gt])) := by
    rw [run_cons_some.mpr ⟨.plain, [], _, rfl, run_cons_some.mpr ⟨.plain, [.special .lt], _, rfl,
      run_address hlex, rfl⟩, rfl⟩]
    rfl
  have hnamed : lex (named name address).toList =
      some (.quoted said :: .special .lt :: (tokens ++ [.special .gt])) := by
    rw [hrest] at hrun
    rw [toList_named]
    refine lex_some.mpr ⟨.plain, _, [], run_cons_some.mpr ⟨.quoted [], [], _, rfl, hrun, rfl⟩,
      rfl, ?_⟩
    simp
  have hcomma : Token.special .comma ∉ .quoted said :: .special .lt :: (tokens ++ [.special .gt]) := by
    simp [(addrSpec_mem haddr).1]
  rw [mailboxList, unfolded_of_lineChar hline, hnamed, Option.bind_some, mailboxes_singleton]
  refine ⟨_, separated_of_not_mem hcomma, ?_⟩
  have hmailbox := @mailbox_address [.quoted said] tokens (by simp [Token.isWord]) haddr
  rw [List.singleton_append] at hmailbox
  rw [hmailbox, addressText, hsource]
  simp [phrase, phraseText, Token.content, hsaid]

end SupportApi.Lib.Address
