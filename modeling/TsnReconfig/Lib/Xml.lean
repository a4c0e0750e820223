import Mathlib.Data.List.Basic

/-!
# XML texts

Documents of elements, attributes in double quotes and white space, read one character after the
other. An error tells whether the text breaks a rule of XML or has something that is not read here:
character data, references, comments, declarations, or white space within a tag at other places than
before an attribute or its end.
-/

namespace TsnReconfig.Lib.Xml

inductive Error
  | notWellFormed
  | unsupported
  deriving DecidableEq, Repr

structure Tag where
  name : String
  attributes : List (String × String) := []
  deriving DecidableEq, Repr

/-- An element whose end tag is still to come, with the elements it has so far. -/
structure OpenElement (X : Type*) where
  tag : Tag
  children : List X := []

/-- What the next character belongs to. In a start tag an attribute can follow only if white space
separates it from what is before it. -/
inductive Mode
  | content
  | markup
  | tagName (name : List Char)
  | tag (tag : Tag) (separated : Bool)
  | attribute (tag : Tag) (name : List Char)
  | equals (tag : Tag) (name : String)
  | value (tag : Tag) (name : String) (value : List Char)
  | emptyTag (tag : Tag)
  | endTag (name : List Char)
  deriving DecidableEq, Repr

/-- The open elements are in a list with the innermost one first. -/
structure State (X : Type*) where
  mode : Mode := .content
  elements : List (OpenElement X) := []
  root : Option X := none

def isSpace (c : Char) : Bool := c == ' ' || c == '\t' || c == '\n' || c == '\r'

def isNameStart (c : Char) : Bool := c.isAlpha || c == '_' || c == ':'

def isNameChar (c : Char) : Bool := isNameStart c || c.isDigit || c == '-' || c == '.'

section
variable {X : Type*} (mk : String → List (String × String) → List X → X)

namespace State

/-- An element has come to its end. There is only one that is in no other. -/
def addElement (s : State X) (x : X) : Except Error (State X) :=
  match s.elements with
  | [] => if s.root.isSome then .error .notWellFormed else .ok ⟨.content, [], some x⟩
  | e :: rest => .ok ⟨.content, { e with children := e.children ++ [x] } :: rest, s.root⟩

/-- A character in a start tag that is not in a name or a value. -/
def stepTag (s : State X) (tag : Tag) (c : Char) : Except Error (State X) :=
  if c = '>' then .ok ⟨.content, ⟨tag, []⟩ :: s.elements, s.root⟩
  else if c = '/' then .ok { s with mode := .emptyTag tag }
  else if isSpace c then .ok { s with mode := .tag tag true }
  else .error .notWellFormed

def step (s : State X) (c : Char) : Except Error (State X) :=
  match s.mode with
  | .content =>
    if c = '<' then .ok { s with mode := .markup }
    else if isSpace c then .ok s
    else .error .unsupported
  | .markup =>
    if c = '/' then .ok { s with mode := .endTag [] }
    else if isNameStart c then .ok { s with mode := .tagName [c] }
    else .error .unsupported
  | .tagName name =>
    if isNameChar c then .ok { s with mode := .tagName (name ++ [c]) }
    else s.stepTag ⟨String.ofList name, []⟩ c
  | .tag tag separated =>
    if separated && isNameStart c then .ok { s with mode := .attribute tag [c] }
    else s.stepTag tag c
  | .attribute tag name =>
    if isNameChar c then .ok { s with mode := .attribute tag (name ++ [c]) }
    else if c = '=' then .ok { s with mode := .equals tag (String.ofList name) }
    else .error .unsupported
  | .equals tag name =>
    if c = '"' then .ok { s with mode := .value tag name [] } else .error .unsupported
  | .value tag name value =>
    if c = '"' then
      if name ∈ tag.attributes.map Prod.fst then .error .notWellFormed
      else
        let attributes := tag.attributes ++ [(name, String.ofList value)]
        .ok { s with mode := .tag { tag with attributes } false }
    else if c = '<' then .error .notWellFormed
    else if c = '&' then .error .unsupported
    -- white space in a value is read as blanks
    else .ok { s with mode := .value tag name (value ++ [if isSpace c then ' ' else c]) }
  | .emptyTag tag =>
    if c = '>' then s.addElement (mk tag.name tag.attributes []) else .error .notWellFormed
  | .endTag name =>
    if isNameChar c then .ok { s with mode := .endTag (name ++ [c]) }
    else if c = '>' then
      match s.elements with
      | [] => .error .notWellFormed
      | e :: rest =>
        if String.ofList name = e.tag.name then
          addElement { s with elements := rest } (mk e.tag.name e.tag.attributes e.children)
        else .error .notWellFormed
    else .error .unsupported

def scan (s : State X) (text : String) : Except Error (State X) :=
  text.toList.foldlM (step mk) s

end State

/-- The root element of a document. -/
def parse (text : String) : Except Error X :=
  (State.scan mk {} text).bind fun s =>
    match s.mode, s.elements, s.root with
    | .content, [], some x => .ok x
    | _, _, _ => .error .notWellFormed

/-! ## Texts that are read -/

namespace State
variable {mk} {s s' : State X} {a b : String}

theorem scan_append (s : State X) (a b : String) :
    scan mk s (a ++ b) = (scan mk s a).bind fun s' => scan mk s' b := by
  unfold scan
  rw [String.toList_append, List.foldlM_append]
  rfl

theorem scan_append_of_ok (h : scan mk s a = .ok s') : scan mk s (a ++ b) = scan mk s' b := by
  rw [scan_append, h]
  rfl

theorem scan_append_of_error {e : Error} (h : scan mk s a = .error e) :
    scan mk s (a ++ b) = .error e := by
  rw [scan_append, h]
  rfl

end State

/-- A text that can be the value of an attribute and is read as it is. -/
def IsPlain (text : String) : Prop :=
  ∀ c ∈ text.toList, c ≠ '"' ∧ c ≠ '<' ∧ c ≠ '&' ∧ isSpace c = false

/-- The characters of a text are of a kind to which the markup does not belong. -/
theorem isPlain_of_forall {text : String} {p : Char → Bool} (h : ∀ c ∈ text.toList, p c)
    (hp : ['"', '<', '&', ' ', '\t', '\n', '\r'].any p = false) : IsPlain text := by
  intro c hc
  have hne : ∀ d ∈ ['"', '<', '&', ' ', '\t', '\n', '\r'], c ≠ d := by
    rintro d hd rfl
    exact List.any_eq_false.mp hp c hd (h c hc)
  simp only [List.mem_cons, List.not_mem_nil, or_false, forall_eq_or_imp, forall_eq] at hne
  obtain ⟨hquote, hless, hreference, hspaces⟩ := hne
  refine ⟨hquote, hless, hreference, ?_⟩
  simp [isSpace, hspaces]

/-- A text within an element that stands for the elements of a list. -/
def Reads (text : String) (xs : List X) : Prop :=
  ∀ (e : OpenElement X) (elements : List (OpenElement X)) (root : Option X),
    State.scan mk ⟨.content, e :: elements, root⟩ text =
      .ok ⟨.content, { e with children := e.children ++ xs } :: elements, root⟩

/-- A text that starts an element. -/
def Starts (text : String) (tag : Tag) : Prop :=
  ∀ (elements : List (OpenElement X)) (root : Option X),
    State.scan mk ⟨.content, elements, root⟩ text =
      .ok ⟨.content, ⟨tag, []⟩ :: elements, root⟩

/-- A text that ends an element within another one. -/
def Ends (text : String) (tag : Tag) : Prop :=
  ∀ (xs : List X) (e : OpenElement X) (elements : List (OpenElement X)) (root : Option X),
    State.scan mk ⟨.content, ⟨tag, xs⟩ :: e :: elements, root⟩ text =
      .ok ⟨.content, { e with children := e.children ++ [mk tag.name tag.attributes xs] } :: elements,
        root⟩

variable {mk} {a b : String} {xs ys : List X} {tag : Tag}

theorem Reads.append (ha : Reads mk a xs) (hb : Reads mk b ys) : Reads mk (a ++ b) (xs ++ ys) := by
  intro e elements root
  rw [State.scan_append_of_ok (ha e elements root), hb, List.append_assoc]

/-- Texts one after the other, as a stream writes them. -/
def concat (texts : List String) : String := texts.foldr (· ++ ·) ""

theorem Reads.concat {α : Type*} {text : α → String} {element : α → X} {l : List α}
    (h : ∀ x ∈ l, Reads mk (text x) [element x]) :
    Reads mk (concat (l.map text)) (l.map element) := by
  induction l with
  | nil =>
    intro e elements root
    simp [Xml.concat, State.scan, pure, Except.pure]
  | cons x l ih =>
    exact (h x (List.mem_cons_self ..)).append
      (ih fun y hy => h y (List.mem_cons_of_mem _ hy))

/-- White space between tags. -/
theorem reads_newline : Reads mk "\n" [] := by
  intro e elements root
  rw [List.append_nil]
  rfl

theorem Starts.newline (h : Starts mk a tag) : Starts mk (a ++ "\n") tag := by
  intro elements root
  rw [State.scan_append_of_ok (h elements root)]
  rfl

theorem Ends.newline (h : Ends mk a tag) : Ends mk (a ++ "\n") tag := by
  intro xs e elements root
  rw [State.scan_append_of_ok (h xs e elements root)]
  rfl

/-- An element is its start, its content and its end. -/
theorem Starts.reads {content : String} (ha : Starts mk a tag) (hcontent : Reads mk content xs)
    (hb : Ends mk b tag) : Reads mk (a ++ content ++ b) [mk tag.name tag.attributes xs] := by
  intro e elements root
  rw [State.scan_append, State.scan_append_of_ok (ha _ _), hcontent]
  exact hb xs e elements root

/-! ## Tags -/

/-- A name of an element or an attribute. -/
def isName (name : String) : Bool :=
  match name.toList with
  | [] => false
  | c :: rest => isNameStart c && rest.all isNameChar

theorem isNameChar_of_isName {name : String} (h : isName name) :
    ∀ c ∈ name.toList, isNameChar c := by
  unfold isName at h
  cases hname : name.toList with
  | nil => simp
  | cons c rest =>
    simp only [hname, Bool.and_eq_true, List.all_eq_true] at h
    intro d hd
    rcases List.mem_cons.mp hd with rfl | hd
    · simp [isNameChar, h.1]
    · exact h.2 d hd

/-- A tag that can be written as it is. -/
structure Tag.Valid (tag : Tag) : Prop where
  name : isName tag.name
  attributes : ∀ a ∈ tag.attributes, isName a.1 ∧ IsPlain a.2
  nodup : (tag.attributes.map Prod.fst).Nodup

def attributeText (a : String × String) : String := " " ++ a.1 ++ "=\"" ++ a.2 ++ "\""

/-- A start tag without its end. -/
def Tag.text (tag : Tag) : String := "<" ++ tag.name ++ concat (tag.attributes.map attributeText)

section
variable {elements : List (OpenElement X)} {root : Option X} {mode : Mode} {c : Char}

/-- Characters that are collected one after the other. -/
theorem scan_collect (state : List Char → State X) {p : Char → Prop}
    (hstep : ∀ v c, p c → State.step mk (state v) c = .ok (state (v ++ [c]))) {text : String}
    (h : ∀ c ∈ text.toList, p c) (v : List Char) :
    State.scan mk (state v) text = .ok (state (v ++ text.toList)) := by
  unfold State.scan
  generalize text.toList = chars at h
  induction chars generalizing v with
  | nil => simp [pure, Except.pure]
  | cons c rest ih =>
    rw [List.foldlM_cons, hstep v c (h c (List.mem_cons_self ..))]
    refine (ih _ fun d hd => h d (List.mem_cons_of_mem _ hd)).trans ?_
    rw [List.append_assoc]
    rfl

theorem scan_value {text : String} (h : IsPlain text) {name : String} :
    State.scan mk ⟨.value tag name [], elements, root⟩ text =
      .ok ⟨.value tag name text.toList, elements, root⟩ := by
  apply scan_collect (fun v => ⟨.value tag name v, elements, root⟩) _ h
  rintro v c ⟨hquote, hless, hreference, hspace⟩
  simp [State.step, hquote, hless, hreference, hspace]

/-- A name is read from its first character on. -/
theorem scan_name {name : String} (h : isName name) {s : State X} (state : List Char → State X)
    (hfirst : ∀ c, isNameStart c → State.step mk s c = .ok (state [c]))
    (hstep : ∀ v c, isNameChar c → State.step mk (state v) c = .ok (state (v ++ [c]))) :
    State.scan mk s name = .ok (state name.toList) := by
  have hchars := isNameChar_of_isName h
  unfold isName at h
  unfold State.scan
  cases hname : name.toList with
  | nil =>
    rw [hname] at h
    cases h
  | cons c rest =>
    simp only [hname, Bool.and_eq_true] at h
    rw [List.foldlM_cons, hfirst c h.1]
    have hmem : ∀ d ∈ (String.ofList rest).toList, isNameChar d := by
      rw [String.toList_ofList]
      exact fun d hd => hchars d (hname ▸ List.mem_cons_of_mem _ hd)
    have hrest := scan_collect state hstep hmem [c]
    rw [State.scan, String.toList_ofList] at hrest
    exact hrest

/-- A start tag has been read up to the end of its name or of an attribute. -/
def Mode.InTag (mode : Mode) (tag : Tag) : Prop :=
  mode = .tag tag false ∨ mode = .tagName tag.name.toList ∧ tag.attributes = []

theorem step_of_inTag (h : mode.InTag tag) (hc : isNameChar c = false) :
    State.step mk ⟨mode, elements, root⟩ c = State.stepTag ⟨mode, elements, root⟩ tag c := by
  rcases h with rfl | ⟨rfl, hattributes⟩
  · rfl
  · have htag : (⟨String.ofList tag.name.toList, []⟩ : Tag) = tag := by
      rw [String.ofList_toList, ← hattributes]
    simp only [State.step, hc, Bool.false_eq_true, if_false, htag]

theorem scan_attributeText (h : mode.InTag tag) {a : String × String} (hname : isName a.1)
    (hplain : IsPlain a.2) (hnew : a.1 ∉ tag.attributes.map Prod.fst) :
    State.scan mk ⟨mode, elements, root⟩ (attributeText a) =
      .ok ⟨.tag { tag with attributes := tag.attributes ++ [a] } false, elements, root⟩ := by
  have hspace : State.scan mk ⟨mode, elements, root⟩ " " =
      .ok ⟨.tag tag true, elements, root⟩ := by
    change (State.step mk ⟨mode, elements, root⟩ ' ').bind _ = _
    rw [step_of_inTag h rfl]
    rfl
  have hread : State.scan mk ⟨.tag tag true, elements, root⟩ a.1 =
      .ok ⟨.attribute tag a.1.toList, elements, root⟩ :=
    scan_name hname (fun v => ⟨.attribute tag v, elements, root⟩)
      (fun c hc => by simp [State.step, hc]) fun v c hc => by simp [State.step, hc]
  have hequals : State.scan mk ⟨.attribute tag a.1.toList, elements, root⟩ "=\"" =
      .ok ⟨.value tag (String.ofList a.1.toList) [], elements, root⟩ := rfl
  have hquote : State.scan mk ⟨.value tag a.1 a.2.toList, elements, root⟩ "\"" =
      .ok ⟨.tag { tag with attributes := tag.attributes ++ [a] } false, elements, root⟩ := by
    change (State.step mk ⟨.value tag a.1 a.2.toList, elements, root⟩ '"').bind _ = _
    simp only [State.step, if_true, if_neg hnew, String.ofList_toList]
    rfl
  rw [String.ofList_toList] at hequals
  simp only [attributeText, State.scan_append, hspace, hread, hequals, scan_value hplain, hquote,
    Except.bind]

theorem scan_attributes (l : List (String × String)) {tag : Tag} (h : mode.InTag tag)
    (hvalid : ∀ a ∈ l, isName a.1 ∧ IsPlain a.2)
    (hnodup : ((tag.attributes ++ l).map Prod.fst).Nodup) :
    ∃ mode', Mode.InTag mode' { tag with attributes := tag.attributes ++ l } ∧
      State.scan mk ⟨mode, elements, root⟩ (concat (l.map attributeText)) =
        .ok ⟨mode', elements, root⟩ := by
  induction l generalizing mode tag with
  | nil => exact ⟨mode, by rw [List.append_nil]; exact h, rfl⟩
  | cons a l ih =>
    obtain ⟨hname, hplain⟩ := hvalid a (List.mem_cons_self ..)
    have hnew : a.1 ∉ tag.attributes.map Prod.fst := by
      rw [List.map_append, List.nodup_append] at hnodup
      intro hmem
      exact hnodup.2.2 _ hmem _ (List.mem_cons_self ..) rfl
    rw [List.append_cons] at hnodup
    have hinTag : Mode.InTag (.tag { tag with attributes := tag.attributes ++ [a] } false)
        { tag with attributes := tag.attributes ++ [a] } := .inl rfl
    obtain ⟨mode', hmode', hscan⟩ := ih hinTag (fun b hb => hvalid b (List.mem_cons_of_mem _ hb)) hnodup
    refine ⟨mode', by rw [List.append_cons]; exact hmode', ?_⟩
    exact (State.scan_append_of_ok (scan_attributeText h hname hplain hnew)).trans hscan

theorem Tag.Valid.scan_text (h : tag.Valid) (elements : List (OpenElement X))
    (root : Option X) :
    ∃ mode, Mode.InTag mode tag ∧
      State.scan mk ⟨.content, elements, root⟩ tag.text = .ok ⟨mode, elements, root⟩ := by
  have hopen : State.scan mk ⟨.content, elements, root⟩ "<" =
      .ok ⟨.markup, elements, root⟩ := rfl
  have hname : State.scan mk ⟨.markup, elements, root⟩ tag.name =
      .ok ⟨.tagName tag.name.toList, elements, root⟩ :=
    scan_name h.name (fun v => ⟨.tagName v, elements, root⟩)
      (fun c hc => by
        have hne : c ≠ '/' := by
          rintro rfl
          cases hc
        simp [State.step, hc, hne])
      fun v c hc => by simp [State.step, hc]
  have hinTag : Mode.InTag (.tagName tag.name.toList) ⟨tag.name, []⟩ := .inr ⟨rfl, rfl⟩
  obtain ⟨mode, hmode, hscan⟩ := scan_attributes tag.attributes hinTag h.attributes h.nodup
  refine ⟨mode, hmode, ?_⟩
  rw [Tag.text, State.scan_append_of_ok (State.scan_append_of_ok hopen |>.trans hname), hscan]

end

/-- A start tag. -/
theorem Tag.Valid.starts (h : tag.Valid) : Starts mk (tag.text ++ ">") tag := by
  intro elements root
  obtain ⟨mode, hmode, hscan⟩ := h.scan_text elements root
  rw [State.scan_append_of_ok hscan]
  change (State.step mk ⟨mode, elements, root⟩ '>').bind _ = _
  rw [step_of_inTag hmode rfl]
  rfl

/-- An element without content. -/
theorem Tag.Valid.reads (h : tag.Valid) :
    Reads mk (tag.text ++ " />") [mk tag.name tag.attributes []] := by
  intro e elements root
  obtain ⟨mode, hmode, hscan⟩ :=
    h.scan_text (e :: elements) root
  rw [State.scan_append_of_ok hscan]
  change (State.step mk ⟨mode, e :: elements, root⟩ ' ').bind _ = _
  rw [step_of_inTag hmode rfl]
  rfl

/-- An end tag. -/
theorem Tag.Valid.ends (h : tag.Valid) : Ends mk ("</" ++ tag.name ++ ">") tag := by
  intro xs e elements root
  have hopen : State.scan mk ⟨.content, ⟨tag, xs⟩ :: e :: elements, root⟩ "</" =
      .ok ⟨.endTag [], ⟨tag, xs⟩ :: e :: elements, root⟩ := rfl
  have hname : State.scan mk ⟨.endTag [], ⟨tag, xs⟩ :: e :: elements, root⟩ tag.name =
      .ok ⟨.endTag tag.name.toList, ⟨tag, xs⟩ :: e :: elements, root⟩ :=
    scan_collect (fun v => ⟨.endTag v, ⟨tag, xs⟩ :: e :: elements, root⟩)
      (fun v c hc => by simp [State.step, hc]) (isNameChar_of_isName h.name) []
  rw [State.scan_append_of_ok (State.scan_append_of_ok hopen |>.trans hname)]
  change (State.step mk ⟨.endTag tag.name.toList, _, root⟩ '>').bind _ = _
  have hclose : isNameChar '>' = false := rfl
  simp only [State.step, hclose, Bool.false_eq_true, if_false, if_true, String.ofList_toList]
  rfl

end

end TsnReconfig.Lib.Xml
