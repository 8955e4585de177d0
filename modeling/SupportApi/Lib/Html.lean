import Mathlib.Data.List.Basic
import Mathlib.Data.List.Infix

/-! HTML as a reader splits it: tags, and the text between them with its character references
decoded. -/

namespace SupportApi.Lib.Html

/-- A text, and each tag with the text that follows it. -/
structure Pieces where
  text : List Char
  tags : List (List Char × List Char)
  deriving DecidableEq

namespace Pieces

def join (p : Pieces) : List Char :=
  p.text ++ p.tags.flatMap fun (tag, text) => '<' :: (tag ++ '>' :: text)

def texts (p : Pieces) : List (List Char) := p.text :: p.tags.map Prod.snd

def consText (c : Char) (p : Pieces) : Pieces := { p with text := c :: p.text }

def closeTag (p : Pieces) : Pieces := ⟨[], ([], p.text) :: p.tags⟩

def consTag (c : Char) (p : Pieces) : Pieces :=
  match p.tags with
  | [] => p
  | (tag, text) :: tags => { p with tags := (c :: tag, text) :: tags }

@[simp] theorem join_nil (text : List Char) : join ⟨text, []⟩ = text := List.append_nil text

@[simp] theorem join_cons (text tag after : List Char) (tags : List (List Char × List Char)) :
    join ⟨text, (tag, after) :: tags⟩ = text ++ '<' :: (tag ++ '>' :: join ⟨after, tags⟩) := by
  simp [join]

theorem join_after (text tag : List Char) (p : Pieces) :
    join ⟨text, (tag, p.text) :: p.tags⟩ = text ++ '<' :: (tag ++ '>' :: p.join) :=
  join_cons text tag p.text p.tags

@[simp] theorem texts_consTag (c : Char) (p : Pieces) : (p.consTag c).texts = p.texts := by
  obtain ⟨text, tags⟩ := p
  cases tags <;> rfl

end Pieces

def startsMarkup (c : Char) : Bool := c.isAlpha || c = '/' || c = '!' || c = '?'

/-- A `<` with anything else after it is text. -/
def opensTag (c : Char) (cs : List Char) : Bool := c = '<' && cs.head?.any startsMarkup

inductive TagState
  | attributes
  | value
  | quoted (quote : Char)
  deriving DecidableEq

/-- `>` ends a tag, but not inside the quotes of a value. -/
def TagState.step : TagState → Char → Option TagState
  | .attributes, c =>
    if c = '>' then none else if c = '=' then some .value else some .attributes
  | .value, c =>
    if c = '>' then none
    else if c = '"' ∨ c = '\'' then some (.quoted c)
    else if c.isWhitespace then some .value
    else some .attributes
  | .quoted quote, c => if c = quote then some .attributes else some (.quoted quote)

inductive Mode
  | text
  | tag (s : TagState)

def split : Mode → List Char → Option Pieces
  | .text, [] => some ⟨[], []⟩
  | .text, c :: cs =>
    if opensTag c cs then split (.tag .attributes) cs
    else (split .text cs).map (Pieces.consText c)
  | .tag _, [] => none
  | .tag s, c :: cs =>
    match s.step c with
    | none => (split .text cs).map Pieces.closeTag
    | some s' => (split (.tag s') cs).map (Pieces.consTag c)

def tagFree : List Char → Bool
  | [] => true
  | c :: cs => !opensTag c cs && tagFree cs

def closes : TagState → List Char → Bool
  | s, [] => (s.step '>').isNone
  | s, c :: cs => (s.step c).any fun s' => closes s' cs

def isTag (tag : List Char) : Bool := opensTag '<' tag && closes .attributes tag

theorem opensTag_append {c : Char} {cs : List Char} (h : opensTag c cs = true)
    (rest : List Char) : opensTag c (cs ++ rest) = true := by
  cases cs with
  | nil => simp [opensTag] at h
  | cons d cs => exact h

theorem opensTag_append_lt {c : Char} {text : List Char} (h : opensTag c text = false)
    (rest : List Char) : opensTag c (text ++ '<' :: rest) = false := by
  cases text with
  | nil =>
    have hlt : startsMarkup '<' = false := by decide
    simp [opensTag, hlt]
  | cons d text => exact h

def Mode.Joins (cs : List Char) (p : Pieces) : Mode → Prop
  | .text => p.join = cs
  | .tag _ => ∃ tag after tags, p = ⟨[], (tag, after) :: tags⟩ ∧
      tag ++ '>' :: Pieces.join ⟨after, tags⟩ = cs

theorem TagState.step_eq_none {s : TagState} {c : Char} (h : s.step c = none) : c = '>' := by
  cases s with
  | attributes =>
    simp only [TagState.step] at h
    split_ifs at h
    assumption
  | value =>
    simp only [TagState.step] at h
    split_ifs at h
    assumption
  | quoted quote =>
    simp only [TagState.step] at h
    split_ifs at h

theorem joins_split {mode : Mode} {cs : List Char} {p : Pieces} (h : split mode cs = some p) :
    mode.Joins cs p := by
  fun_induction split mode cs generalizing p with
  | case1 =>
    cases h
    rfl
  | case2 c cs hopens ih =>
    obtain ⟨tag, after, tags, rfl, rfl⟩ := ih h
    obtain ⟨hc, -⟩ := Bool.and_eq_true_iff.mp hopens
    rw [decide_eq_true_eq] at hc
    rw [hc, Mode.Joins, Pieces.join_cons]
    rfl
  | case3 c cs hopens ih =>
    obtain ⟨q, hq, rfl⟩ := Option.map_eq_some_iff.mp h
    exact congrArg (c :: ·) (ih hq)
  | case4 => cases h
  | case5 s c cs hstep ih =>
    obtain ⟨q, hq, rfl⟩ := Option.map_eq_some_iff.mp h
    exact ⟨[], q.text, q.tags, rfl, by rw [TagState.step_eq_none hstep, ← ih hq]; rfl⟩
  | case6 s c cs s' hstep ih =>
    obtain ⟨q, hq, rfl⟩ := Option.map_eq_some_iff.mp h
    obtain ⟨tag, after, tags, rfl, rfl⟩ := ih hq
    exact ⟨c :: tag, after, tags, rfl, rfl⟩

theorem opensTag_of_prefix {c : Char} {text cs : List Char} (h : text <+: cs)
    (hopens : opensTag c cs = false) : opensTag c text = false := by
  obtain ⟨rest, rfl⟩ := h
  rw [Bool.eq_false_iff] at hopens ⊢
  exact fun htext => hopens (opensTag_append htext rest)

theorem tagFree_split {mode : Mode} {cs : List Char} {p : Pieces} (h : split mode cs = some p) :
    ∀ text ∈ p.texts, tagFree text = true := by
  fun_induction split mode cs generalizing p with
  | case1 =>
    cases h
    simp [Pieces.texts, tagFree]
  | case2 c cs hopens ih => exact ih h
  | case3 c cs hopens ih =>
    obtain ⟨q, hq, rfl⟩ := Option.map_eq_some_iff.mp h
    have hprefix : q.text <+: cs := ⟨_, joins_split hq⟩
    simp only [Pieces.texts, Pieces.consText, List.forall_mem_cons] at ih ⊢
    have hrest := ih hq
    refine ⟨?_, hrest.2⟩
    rw [tagFree, opensTag_of_prefix hprefix (Bool.eq_false_iff.mpr hopens), hrest.1]
    rfl
  | case4 => cases h
  | case5 s c cs hstep ih =>
    obtain ⟨q, hq, rfl⟩ := Option.map_eq_some_iff.mp h
    simp only [Pieces.texts, Pieces.closeTag, List.map_cons, List.forall_mem_cons] at ih ⊢
    exact ⟨rfl, ih hq⟩
  | case6 s c cs s' hstep ih =>
    obtain ⟨q, hq, rfl⟩ := Option.map_eq_some_iff.mp h
    rw [Pieces.texts_consTag]
    exact ih hq

theorem split_text {text : List Char} (h : tagFree text = true) :
    split .text text = some ⟨text, []⟩ := by
  induction text with
  | nil => rfl
  | cons c text ih =>
    rw [tagFree, Bool.and_eq_true, Bool.not_eq_true'] at h
    rw [split, if_neg (Bool.eq_false_iff.mp h.1), ih h.2]
    rfl

theorem split_text_append {text rest : List Char} (h : tagFree text = true)
    (hopens : opensTag '<' rest = true) :
    split .text (text ++ '<' :: rest) =
      (split (.tag .attributes) rest).map fun p => { p with text := text ++ p.text } := by
  induction text with
  | nil =>
    rw [List.nil_append, split, if_pos hopens]
    exact Option.map_id'.symm
  | cons c text ih =>
    rw [tagFree, Bool.and_eq_true, Bool.not_eq_true'] at h
    rw [List.cons_append, split, if_neg (Bool.eq_false_iff.mp (opensTag_append_lt h.1 rest)),
      ih h.2, Option.map_map]
    rfl

theorem split_tag_append {s : TagState} {tag : List Char} (h : closes s tag = true)
    (rest : List Char) :
    split (.tag s) (tag ++ '>' :: rest) =
      (split .text rest).map fun p => ⟨[], (tag, p.text) :: p.tags⟩ := by
  induction tag generalizing s with
  | nil =>
    rw [closes, Option.isNone_iff_eq_none] at h
    rw [List.nil_append, split, h]
    rfl
  | cons c tag ih =>
    rw [closes, Option.any_eq_true] at h
    obtain ⟨s', hstep, hcloses⟩ := h
    rw [List.cons_append, split, hstep]
    simp only [ih hcloses, Option.map_map]
    rfl

theorem split_join {p : Pieces} (htexts : ∀ text ∈ p.texts, tagFree text = true)
    (htags : ∀ tag ∈ p.tags, isTag tag.1 = true) : split .text p.join = some p := by
  obtain ⟨text, tags⟩ := p
  induction tags generalizing text with
  | nil =>
    rw [Pieces.join_nil]
    exact split_text (htexts text List.mem_cons_self)
  | cons next tags ih =>
    obtain ⟨tag, after⟩ := next
    obtain ⟨hopens, hcloses⟩ := Bool.and_eq_true_iff.mp (htags (tag, after) List.mem_cons_self)
    have hrest : split .text (Pieces.join ⟨after, tags⟩) = some ⟨after, tags⟩ :=
      ih after (fun text htext => htexts text (List.mem_cons_of_mem _ htext))
        fun tag htag => htags tag (List.mem_cons_of_mem _ htag)
    rw [Pieces.join_cons, split_text_append (htexts text List.mem_cons_self)
      (opensTag_append hopens _), split_tag_append hcloses, hrest]
    simp

/-- The references a reader knows: what one that follows an `&` stands for, and what is left.
None stands for more than it takes. -/
structure References where
  read : List Char → Option (List Char × List Char)
  shorter : ∀ {cs expansion rest}, read cs = some (expansion, rest) →
    expansion.length + rest.length ≤ cs.length

variable (references : References)

def decode : List Char → List Char
  | [] => []
  | c :: cs =>
    if c = '&' then
      match _h : references.read cs with
      | none => c :: decode cs
      | some (expansion, rest) => expansion ++ decode rest
    else c :: decode cs
termination_by cs => cs.length
decreasing_by
  all_goals simp only [List.length_cons]
  · omega
  · have hshorter := references.shorter ‹_›
    omega
  · omega

def referenceFree : List Char → Bool
  | [] => true
  | c :: cs => !(c = '&' && (references.read cs).isSome) && referenceFree cs

def Pieces.decode (p : Pieces) : Pieces :=
  ⟨Html.decode references p.text, p.tags.map fun (tag, text) => (tag, Html.decode references text)⟩

def read (cs : List Char) : Option Pieces := (split .text cs).map (Pieces.decode references)

/-- A reader takes it for text that stands for itself. -/
def plain (text : List Char) : Bool := tagFree text && referenceFree references text

variable {references}

theorem length_decode_le (cs : List Char) : (decode references cs).length ≤ cs.length := by
  fun_induction decode references cs with
  | case1 => exact Nat.le_refl 0
  | case2 cs hread ih =>
    rw [List.length_cons, List.length_cons]
    omega
  | case3 cs expansion rest hread ih =>
    have hshorter := references.shorter hread
    rw [List.length_append, List.length_cons]
    omega
  | case4 c cs hc ih =>
    rw [List.length_cons, List.length_cons]
    omega

theorem decode_of_referenceFree {cs : List Char} (h : referenceFree references cs = true) :
    decode references cs = cs := by
  fun_induction decode references cs with
  | case1 => rfl
  | case2 cs hread ih =>
    rw [referenceFree, Bool.and_eq_true] at h
    rw [ih h.2]
  | case3 cs expansion rest hread ih => simp [referenceFree, hread] at h
  | case4 c cs hc ih =>
    rw [referenceFree, Bool.and_eq_true] at h
    rw [ih h.2]

theorem referenceFree_of_length {cs : List Char}
    (h : (decode references cs).length = cs.length) : referenceFree references cs = true := by
  fun_induction decode references cs with
  | case1 => rfl
  | case2 cs hread ih =>
    rw [List.length_cons, List.length_cons] at h
    rw [referenceFree, ih (by omega), hread]
    rfl
  | case3 cs expansion rest hread ih =>
    have hshorter := references.shorter hread
    have hle := @length_decode_le references rest
    rw [List.length_append, List.length_cons] at h
    omega
  | case4 c cs hc ih =>
    rw [List.length_cons, List.length_cons] at h
    rw [referenceFree, ih (by omega)]
    simp [hc]

theorem Pieces.decode_cons (text tag after : List Char) (tags : List (List Char × List Char)) :
    (Pieces.mk text ((tag, after) :: tags)).decode references =
      ⟨Html.decode references text, (tag, (Pieces.mk after tags |>.decode references).text) ::
        (Pieces.mk after tags |>.decode references).tags⟩ := rfl

theorem Pieces.length_decode (p : Pieces) :
    (p.decode references).join.length ≤ p.join.length ∧
      ((p.decode references).join.length = p.join.length →
        ∀ text ∈ p.texts, referenceFree references text = true) := by
  obtain ⟨text, tags⟩ := p
  induction tags generalizing text with
  | nil =>
    refine ⟨?_, ?_⟩
    · simpa [Pieces.decode] using length_decode_le text
    · intro h
      simp only [Pieces.decode, List.map_nil, Pieces.join_nil] at h
      simpa [Pieces.texts] using referenceFree_of_length h
  | cons next tags ih =>
    obtain ⟨tag, after⟩ := next
    obtain ⟨hle, hfree⟩ := ih after
    have htext := @length_decode_le references text
    rw [Pieces.decode_cons, Pieces.join_after, Pieces.join_cons]
    simp only [List.length_append, List.length_cons]
    refine ⟨by omega, fun h => ?_⟩
    have hhead : referenceFree references text = true := referenceFree_of_length (by omega)
    have htail := hfree (by omega)
    simp only [Pieces.texts, List.map_cons, List.forall_mem_cons] at htail ⊢
    exact ⟨hhead, htail⟩

theorem Pieces.decode_eq {p : Pieces}
    (h : ∀ text ∈ p.texts, referenceFree references text = true) : p.decode references = p := by
  obtain ⟨text, tags⟩ := p
  simp only [Pieces.texts, List.forall_mem_cons, List.forall_mem_map] at h
  simp only [Pieces.decode, Pieces.mk.injEq]
  refine ⟨decode_of_referenceFree h.1, ?_⟩
  refine (List.map_congr_left fun tag htag => ?_).trans (List.map_id tags)
  rw [decode_of_referenceFree (h.2 tag htag)]
  rfl

/-- A document is read back as it was joined if and only if its texts stand for themselves. -/
theorem read_join_iff {p : Pieces} (htags : ∀ tag ∈ p.tags, isTag tag.1 = true) :
    read references p.join = some p ↔ ∀ text ∈ p.texts, plain references text = true := by
  simp only [plain, Bool.and_eq_true]
  constructor
  · intro h
    obtain ⟨q, hsplit, hdecode⟩ := Option.map_eq_some_iff.mp h
    have hjoin : q.join = p.join := joins_split hsplit
    have hfree := (Pieces.length_decode q).2 (by rw [hdecode, hjoin])
    rw [Pieces.decode_eq hfree] at hdecode
    subst hdecode
    exact fun text htext => ⟨tagFree_split hsplit text htext, hfree text htext⟩
  · intro h
    rw [read, split_join (fun text htext => (h text htext).1) htags, Option.map_some,
      Pieces.decode_eq fun text htext => (h text htext).2]

inductive Item
  | text (cs : List Char)
  | tag (cs : List Char)

def Item.source : Item → List Char
  | .text cs => cs
  | .tag cs => '<' :: (cs ++ ['>'])

def ofItems : List Item → Pieces
  | [] => ⟨[], []⟩
  | .text cs :: items => { ofItems items with text := cs ++ (ofItems items).text }
  | .tag cs :: items => ⟨[], (cs, (ofItems items).text) :: (ofItems items).tags⟩

theorem join_ofItems (items : List Item) :
    (ofItems items).join = items.flatMap Item.source := by
  induction items with
  | nil => rfl
  | cons item items ih =>
    rw [List.flatMap_cons, ← ih]
    cases item with
    | text text => exact List.append_assoc _ _ _
    | tag tag =>
      rw [ofItems, Pieces.join_after, Item.source]
      simp

def AllTags (items : List Item) : Prop := ∀ tag ∈ (ofItems items).tags, isTag tag.1 = true

theorem allTags_nil : AllTags [] := by
  simp [AllTags, ofItems]

theorem allTags_text (text : List Char) (items : List Item) :
    AllTags (.text text :: items) ↔ AllTags items := Iff.rfl

theorem allTags_tag {tag : List Char} (h : isTag tag = true) (items : List Item) :
    AllTags (.tag tag :: items) ↔ AllTags items := by
  simp only [AllTags, ofItems, List.forall_mem_cons, h, true_and]

def inert (text : List Char) : Bool := text.all fun c => c ≠ '<' && c ≠ '&'

theorem plain_append {text : List Char} (h : inert text = true) (rest : List Char) :
    plain references (text ++ rest) = plain references rest := by
  induction text with
  | nil => rfl
  | cons c text ih =>
    simp only [inert, List.all_cons, Bool.and_eq_true, ne_eq, decide_eq_true_eq] at h ih
    rw [← ih h.2]
    simp [plain, tagFree, referenceFree, opensTag, h.1]

variable (references) in
def AllPlain (items : List Item) : Prop :=
  ∀ text ∈ (ofItems items).texts, plain references text = true

theorem allPlain_nil : AllPlain references [] := by
  simp [AllPlain, ofItems, Pieces.texts, plain, tagFree, referenceFree]

theorem allPlain_tag (tag : List Char) (items : List Item) :
    AllPlain references (.tag tag :: items) ↔ AllPlain references items := by
  simp [AllPlain, ofItems, Pieces.texts, plain, tagFree, referenceFree]

theorem allPlain_inert {text : List Char} (h : inert text = true) (items : List Item) :
    AllPlain references (.text text :: items) ↔ AllPlain references items := by
  simp only [AllPlain, ofItems, Pieces.texts, List.forall_mem_cons, plain_append h]

theorem allPlain_text (text tag : List Char) (items : List Item) :
    AllPlain references (.text text :: .tag tag :: items) ↔
      plain references text = true ∧ AllPlain references items := by
  simp only [AllPlain, ofItems, Pieces.texts, List.append_nil, List.map_cons, List.forall_mem_cons]

theorem read_source_iff {items : List Item} (h : AllTags items) :
    read references (items.flatMap Item.source) = some (ofItems items) ↔
      AllPlain references items := by
  rw [← join_ofItems]
  exact read_join_iff h

end SupportApi.Lib.Html
