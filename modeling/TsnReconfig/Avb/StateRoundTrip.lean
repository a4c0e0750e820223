import TsnReconfig.Avb.StateXml

/-!
# Export and import of the state of the learning controller

Whether the text of the state is a document, and what is loaded from it.
-/

namespace TsnReconfig.Avb

open Lib OpenFlow Xml

/-! ## The texts of values -/

theorem isPlain_toString (n : ℕ) : IsPlain (toString (n : ℤ)) := by
  have htext : (toString (n : ℤ)).toList = Nat.toDigits 10 n := by
    show (n.repr).toList = _
    exact Nat.toList_repr
  apply isPlain_of_forall (p := Char.isDigit)
  · rw [htext]
    exact isDigit_toDigits
  · rfl

theorem isPlain_str (a : MACAddress) : IsPlain (MACAddress.str a) := by
  apply isPlain_of_forall (p := fun c => isHexDigit c || c == '-')
  · intro c hc
    rw [MACAddress.str, String.toList_ofList] at hc
    obtain ⟨k, -, hk⟩ := List.mem_flatMap.mp (List.mem_of_mem_dropLast hc)
    rcases List.mem_append.mp hk with hk | hk
    · rw [isHexDigit_hexByte (MACAddress.getAddressByte_lt a k) c hk]
      rfl
    · rw [List.mem_singleton.mp hk]
      rfl
  · rfl

theorem isPlain_getMacAddress {S : Type*} (names : SwitchNames S) (swinfo : S) :
    IsPlain (names.getMacAddress swinfo) := by
  unfold SwitchNames.getMacAddress
  cases names.macAddress swinfo with
  | none => exact fun c hc => absurd hc (by simp)
  | some a => exact isPlain_str a

/-! ## The text of the state -/

theorem reads_tab : Reads XMLElement.mk tab [] := by
  intro e elements root
  rw [List.append_nil]
  rfl

namespace AVBLearningControllerApp
variable {S : Type*} (names : SwitchNames S) (app : AVBLearningControllerApp S)

def entryTag (e : MACAddress × UInt32) : Tag :=
  ⟨"entry", [("mac", MACAddress.str e.1), ("port", toString (e.2.toNat : ℤ))]⟩

def mactableTag (swinfo : S) : Tag := ⟨"mactable", [("switch_id", names.getMacAddress swinfo)]⟩

def controllerappTag : Tag := ⟨"controllerapp", [("type", "AVBLearningControllerApp")]⟩

theorem valid_entryTag (e : MACAddress × UInt32) : (entryTag e).Valid := by
  have hname : isName "entry" = true := rfl
  have hmac : isName "mac" = true := rfl
  have hport : isName "port" = true := rfl
  have hne : ["mac", "port"].Nodup := by decide
  refine ⟨hname, fun a ha => ?_, hne⟩
  rcases List.mem_cons.mp ha with rfl | ha
  · exact ⟨hmac, isPlain_str e.1⟩
  · obtain rfl := List.mem_singleton.mp ha
    exact ⟨hport, isPlain_toString _⟩

theorem valid_mactableTag (swinfo : S) : (mactableTag names swinfo).Valid := by
  have hname : isName "mactable" = true := rfl
  have hswitchId : isName "switch_id" = true := rfl
  refine ⟨hname, fun a ha => ?_, List.nodup_singleton _⟩
  obtain rfl := List.mem_singleton.mp ha
  exact ⟨hswitchId, isPlain_getMacAddress names swinfo⟩

theorem reads_entryText (e : MACAddress × UInt32) :
    Reads XMLElement.mk (entryText e) [.mk "entry" (entryTag e).attributes []] := by
  have hstart : "<entry mac=\"" = "<" ++ "entry" ++ " " ++ "mac" ++ "=\"" := by simp
  have hport : "\" port=\"" = "\"" ++ " " ++ "port" ++ "=\"" := by simp
  have hend : "\" />\n" = "\"" ++ " />" ++ "\n" := by simp
  have htext : entryText e =
      tab ++ (tab ++ (tab ++ (tab ++ ((entryTag e).text ++ " />" ++ "\n")))) := by
    simp only [entryText, hstart, hport, hend, Tag.text, entryTag, concat, attributeText,
      List.map_cons, List.map_nil, List.foldr_cons, List.foldr_nil, String.append_empty,
      String.append_assoc]
  rw [htext]
  exact reads_tab.append (reads_tab.append (reads_tab.append (reads_tab.append
    ((valid_entryTag e).reads.append reads_newline))))

theorem reads_mactableText (x : S × Table MACAddress UInt32) :
    Reads XMLElement.mk (mactableText names x) [.mk "mactable" (mactableTag names x.1).attributes
      (x.2.entries.map fun e => .mk "entry" (entryTag e).attributes [])] := by
  have hvalid := valid_mactableTag names x.1
  have hcontent := Reads.concat fun e (_ : e ∈ x.2.entries) => reads_entryText e
  have hstart : "<mactable switch_id=\"" = "<" ++ "mactable" ++ " " ++ "switch_id" ++ "=\"" := by
    simp
  have hquote : "\">\n" = "\"" ++ ">" ++ "\n" := by simp
  have hend : "</mactable>\n" = "</" ++ "mactable" ++ ">" ++ "\n" := by simp
  have htext : mactableText names x = (tab ++ (tab ++ tab)) ++
      ((mactableTag names x.1).text ++ ">" ++ "\n" ++
        (concat (x.2.entries.map entryText) ++ (tab ++ (tab ++ tab))) ++
        ("</" ++ (mactableTag names x.1).name ++ ">" ++ "\n")) := by
    simp only [mactableText, hstart, hquote, hend, Tag.text, mactableTag, concat, attributeText,
      List.map_cons, List.map_nil, List.foldr_cons, List.foldr_nil, String.append_empty,
      String.append_assoc]
  have htabs := reads_tab.append (reads_tab.append reads_tab)
  have hread := htabs.append
    (hvalid.starts.newline.reads (hcontent.append htabs) hvalid.ends.newline)
  simp only [List.append_nil, List.nil_append] at hread
  rw [htext]
  exact hread

/-- The document for a controller without SRP tables. -/
def stateElement : XMLElement :=
  .mk "config" [] [.mk "controllerapp" controllerappTag.attributes
    [.mk "macManager" [] (app.lookupTable.entries.map fun x =>
        .mk "mactable" (mactableTag names x.1).attributes
          (x.2.entries.map fun e => .mk "entry" (entryTag e).attributes [])),
      .mk "srpManager" [] []]]

/-- The elements that are open where the SRP tables are written. -/
def openElements : List (OpenElement XMLElement) :=
  [⟨controllerappTag, [.mk "macManager" [] (app.lookupTable.entries.map fun x =>
      .mk "mactable" (mactableTag names x.1).attributes
        (x.2.entries.map fun e => .mk "entry" (entryTag e).attributes []))]⟩,
    ⟨⟨"config", []⟩, []⟩]

theorem valid_controllerappTag : controllerappTag.Valid := by
  have hname : isName "controllerapp" = true := rfl
  have htype : isName "type" = true := rfl
  refine ⟨hname, fun a ha => ?_, List.nodup_singleton _⟩
  obtain rfl := List.mem_singleton.mp ha
  exact ⟨htype, isPlain_of_forall (p := Char.isAlpha) (List.all_eq_true.mp rfl) rfl⟩

/-- A tag without attributes. -/
theorem valid_of_isName (name : String) (h : isName name) : Tag.Valid ⟨name, []⟩ :=
  ⟨h, fun _ ha => absurd ha List.not_mem_nil, .nil⟩

/-- The state is written up to the SRP tables. -/
theorem scan_stateToXML :
    State.scan XMLElement.mk {} (app.stateToXML names) =
      State.scan XMLElement.mk ⟨.content, openElements names app, none⟩
        (app.srpManager.exportToXML names ++ (tab ++ "</controllerapp>\n" ++ "</config>\n")) := by
  have hconfig : Starts XMLElement.mk "<config>\n" ⟨"config", []⟩ := by
    have h : Starts XMLElement.mk _ _ := (valid_of_isName "config" rfl).starts
    have htext : (Tag.mk "config" []).text ++ ">" ++ "\n" = "<config>\n" := by
      simp [Tag.text, concat]
    exact htext ▸ h.newline
  have hcontrollerapp : Starts XMLElement.mk "<controllerapp type=\"AVBLearningControllerApp\">\n"
      controllerappTag := by
    have h : Starts XMLElement.mk _ _ := valid_controllerappTag.starts
    have htext : controllerappTag.text ++ ">" ++ "\n" =
        "<controllerapp type=\"AVBLearningControllerApp\">\n" := by
      simp [Tag.text, concat, controllerappTag, attributeText]
    exact htext ▸ h.newline
  have hvalid := valid_of_isName "macManager" rfl
  have hstart : Starts XMLElement.mk "<macManager>\n" ⟨"macManager", []⟩ := by
    have h : Starts XMLElement.mk _ _ := hvalid.starts
    have htext : (Tag.mk "macManager" []).text ++ ">" ++ "\n" = "<macManager>\n" := by
      simp [Tag.text, concat]
    exact htext ▸ h.newline
  have hend : Ends XMLElement.mk "</macManager>\n" ⟨"macManager", []⟩ := by
    have h : Ends XMLElement.mk _ _ := hvalid.ends
    have htext : "</" ++ (Tag.mk "macManager" []).name ++ ">" ++ "\n" = "</macManager>\n" := by simp
    exact htext ▸ h.newline
  have htext : app.stateToXML names = "<config>\n" ++ (tab ++
      ("<controllerapp type=\"AVBLearningControllerApp\">\n" ++
        (((tab ++ tab) ++ ("<macManager>\n" ++
          (concat (app.lookupTable.entries.map (mactableText names)) ++ (tab ++ tab)) ++
            "</macManager>\n")) ++
          (app.srpManager.exportToXML names ++
            (tab ++ "</controllerapp>\n" ++ "</config>\n"))))) := by
    unfold stateToXML
    -- the texts are not to be taken apart
    generalize "<config>\n" = config
    generalize "<controllerapp type=\"AVBLearningControllerApp\">\n" = controllerapp
    generalize tab = tab
    simp only [String.append_assoc]
  have hcontent := Reads.concat fun x (_ : x ∈ app.lookupTable.entries) =>
    reads_mactableText names x
  have htabs := reads_tab.append reads_tab
  have hread := htabs.append (hstart.reads (hcontent.append htabs) hend)
  rw [htext, State.scan_append_of_ok (hconfig [] none), State.scan_append_of_ok (reads_tab _ _ _),
    State.scan_append_of_ok (hcontrollerapp _ _), State.scan_append_of_ok (hread _ _ _)]
  simp only [List.append_nil, List.nil_append]
  rfl

theorem starts_srpManager : Starts XMLElement.mk "<srpManager>\n" ⟨"srpManager", []⟩ := by
  have h : Starts XMLElement.mk _ _ := (valid_of_isName "srpManager" rfl).starts
  have htext : (Tag.mk "srpManager" []).text ++ ">" ++ "\n" = "<srpManager>\n" := by
    simp [Tag.text, concat]
  exact htext ▸ h.newline

/-- Without SRP tables the text is a document. -/
theorem parse_stateToXML (h : app.srpManager.srpTables.entries = []) :
    parse XMLElement.mk (app.stateToXML names) = .ok (stateElement names app) := by
  have hend : Ends XMLElement.mk "</srpManager>\n" ⟨"srpManager", []⟩ := by
    have h : Ends XMLElement.mk _ _ := (valid_of_isName "srpManager" rfl).ends
    have htext : "</" ++ (Tag.mk "srpManager" []).name ++ ">" ++ "\n" = "</srpManager>\n" := by simp
    exact htext ▸ h.newline
  have hcontrollerapp : Ends XMLElement.mk "</controllerapp>\n" controllerappTag := by
    have h : Ends XMLElement.mk _ _ := valid_controllerappTag.ends
    have htext : "</" ++ controllerappTag.name ++ ">" ++ "\n" = "</controllerapp>\n" := by
      simp [controllerappTag]
    exact htext ▸ h.newline
  have hconfig (xs : List XMLElement) : State.scan XMLElement.mk
      ⟨.content, [⟨⟨"config", []⟩, xs⟩], none⟩ "</config>\n" =
      .ok ⟨.content, [], some (.mk "config" [] xs)⟩ := rfl
  have hempty : Reads XMLElement.mk "" [] := by
    intro e elements root
    rw [List.append_nil]
    rfl
  have hread := (starts_srpManager.reads hempty hend).append reads_tab
  have htext : app.srpManager.exportToXML names ++ (tab ++ "</controllerapp>\n" ++ "</config>\n") =
      ("<srpManager>\n" ++ "" ++ "</srpManager>\n" ++ tab) ++
        ("</controllerapp>\n" ++ "</config>\n") := by
    unfold SRPTableManagement.exportToXML
    rw [h]
    generalize tab = tab
    generalize "<srpManager>\n" = srpManager
    simp only [concat, List.map_nil, List.foldr_nil, String.append_assoc]
  rw [parse, scan_stateToXML, htext, openElements, State.scan_append_of_ok (hread _ _ _),
    State.scan_append_of_ok (hcontrollerapp _ _ _ _), hconfig]
  rfl

/-- The first SRP table breaks the text: the value of its attribute comes upon a tag. -/
theorem parse_stateToXML_of_ne (h : app.srpManager.srpTables.entries ≠ []) :
    parse XMLElement.mk (app.stateToXML names) = .error .notWellFormed := by
  obtain ⟨⟨swinfo, t⟩, rest, hentries⟩ := List.exists_cons_of_ne_nil h
  have hstart (elements : List (OpenElement XMLElement)) :
      State.scan XMLElement.mk ⟨.content, elements, none⟩ "<table switch_id=\"" =
      .ok ⟨.value ⟨"table", []⟩ "switch_id" [], elements, none⟩ := rfl
  have hend (v : List Char) (elements : List (OpenElement XMLElement)) :
      State.scan XMLElement.mk ⟨.value ⟨"table", []⟩ "switch_id" v, elements, none⟩
        (">\n" ++ "<srpTable>\n") = .error .notWellFormed := rfl
  have htext : app.srpManager.exportToXML names ++
      (tab ++ "</controllerapp>\n" ++ "</config>\n") =
      "<srpManager>\n" ++ ("<table switch_id=\"" ++ (names.getMacAddress swinfo ++
        ((">\n" ++ "<srpTable>\n") ++
          (concat (t.talkerTables.entries.map
              (SRPTable.talkerTableText (names.getFullPath swinfo))) ++
            (concat (t.listenerTables.entries.map
                (SRPTable.listenerTableText (names.getFullPath swinfo))) ++
              ("</srpTable>\n" ++ "</table>\n" ++
                concat (rest.map (SRPTableManagement.tableText names)) ++ "</srpManager>\n" ++
                tab ++ "</controllerapp>\n" ++ "</config>\n")))))) := by
    unfold SRPTableManagement.exportToXML
    rw [hentries, List.map_cons]
    unfold concat
    rw [List.foldr_cons]
    unfold SRPTableManagement.tableText SRPTable.text concat
    generalize tab = tab
    generalize "<srpManager>\n" = srpManager
    generalize "<table switch_id=\"" = table
    generalize ">\n" = tagEnd
    generalize "<srpTable>\n" = srpTable
    generalize "</srpTable>\n" = srpTableEnd
    simp only [String.append_assoc]
  rw [parse, scan_stateToXML, htext, State.scan_append_of_ok (starts_srpManager _ _),
    State.scan_append_of_ok (hstart _), State.scan_append_of_ok
      (scan_value (isPlain_getMacAddress names swinfo)), State.scan_append_of_error (hend _ _)]
  rfl

/-! ## Loading -/

variable [DecidableEq S] {now : SimTime} {info : S} {app app' : AVBLearningControllerApp S}

/-- An entry is inserted if its address is specified and not in the table. -/
theorem loadEntry_spec (info : S) (e : MACAddress × UInt32) (s : Bool × AVBLearningControllerApp S) :
    ∃ s', loadEntry info s (.mk "entry" (entryTag e).attributes []) = some s' ∧
      s'.2.srpManager = s.2.srpManager ∧
      (∀ mac, (s'.2.lookupTable.get info).find mac = ((s.2.lookupTable.get info).find mac).or
        (if mac ≠ 0 ∧ mac = e.1 then some e.2 else none)) ∧
      ∀ other ≠ info, s'.2.lookupTable.get other = s.2.lookupTable.get other := by
  have hmac : (XMLElement.mk "entry" (entryTag e).attributes []).getAttribute "mac" =
    some (MACAddress.str e.1) := rfl
  have hport : (XMLElement.mk "entry" (entryTag e).attributes []).getAttribute "port" =
    some (toString (e.2.toNat : ℤ)) := rfl
  have hread : UInt32.ofInt (atoi (toString (e.2.toNat : ℤ))) = e.2 := by
    have hlt := e.2.toNat_lt
    have hlong : longMax = 9223372036854775807 := rfl
    rw [atoi_toString (by omega) (by omega), uint32_ofInt_bmod]
  unfold loadEntry
  rw [hmac, hport, Option.bind_some, MACAddress.tryParse_str, Option.bind_some]
  by_cases hzero : e.1 = 0
  · refine ⟨s, if_pos hzero, rfl, fun mac => ?_, fun _ _ => rfl⟩
    rw [if_neg (by rintro ⟨hne, rfl⟩; exact hne hzero), Option.or_none]
  rw [if_neg hzero]
  dsimp only
  rw [hread]
  by_cases hknown : ((s.2.lookupTable.get info).find e.1).isSome
  · refine ⟨s, if_pos hknown, rfl, fun mac => ?_, fun _ _ => rfl⟩
    split_ifs with h
    · obtain ⟨port, hport⟩ := Option.isSome_iff_exists.mp hknown
      rw [h.2, hport, Option.some_or]
    · rw [Option.or_none]
  · refine ⟨_, if_neg hknown, rfl, fun mac => ?_, fun other hother => ?_⟩
    · change ((s.2.lookupTable.set info _).get info).find mac = _
      rw [Table.get_set, if_pos rfl, Table.find_set]
      split_ifs with hmac h h
      · rw [hmac, Option.not_isSome_iff_eq_none.mp hknown, Option.none_or]
      · exact absurd ⟨hmac ▸ hzero, hmac⟩ h
      · exact absurd h.2 hmac
      · rw [Option.or_none]
    · change (s.2.lookupTable.set info _).get other = _
      rw [Table.get_set, if_neg hother]

theorem loadEntries_spec (info : S) (l : List (MACAddress × UInt32))
    (s : Bool × AVBLearningControllerApp S) :
    ∃ s', (l.map fun e => XMLElement.mk "entry" (entryTag e).attributes []).foldlM
        (loadEntry info) s = some s' ∧
      s'.2.srpManager = s.2.srpManager ∧
      (∀ mac, (s'.2.lookupTable.get info).find mac = ((s.2.lookupTable.get info).find mac).or
        (if mac = 0 then none else l.lookup mac)) ∧
      ∀ other ≠ info, s'.2.lookupTable.get other = s.2.lookupTable.get other := by
  induction l generalizing s with
  | nil => exact ⟨s, rfl, rfl, fun mac => by simp, fun _ _ => rfl⟩
  | cons e l ih =>
    obtain ⟨s₁, hs₁, hsrp₁, hfind₁, hother₁⟩ := loadEntry_spec info e s
    obtain ⟨s', hs', hsrp, hfind, hother⟩ := ih s₁
    refine ⟨s', ?_, hsrp.trans hsrp₁, fun mac => ?_,
      fun other h => (hother other h).trans (hother₁ other h)⟩
    · rw [List.map_cons, List.foldlM_cons, hs₁]
      exact hs'
    · rw [hfind, hfind₁, Option.or_assoc]
      congr 1
      by_cases hzero : mac = 0
      · rw [if_neg (fun h => h.1 hzero), if_pos hzero, if_pos hzero, Option.none_or]
      · rw [if_neg hzero, if_neg hzero, List.lookup_cons]
        by_cases hmac : mac = e.1
        · rw [if_pos ⟨hzero, hmac⟩, Option.some_or, hmac, beq_self_eq_true]
        · rw [if_neg (fun h => hmac h.2), Option.none_or, beq_false_of_ne hmac]

/-- The MAC table that is written first for the address of a switch. -/
def exportedTable (names : SwitchNames S) (app : AVBLearningControllerApp S) (info : S) :
    List (MACAddress × UInt32) :=
  (app.lookupTable.entries.find? fun x =>
    names.getMacAddress x.1 == names.getMacAddress info).elim [] (·.2.entries)

/-- The document has the entries of the first table for the address. -/
theorem load_stateElement (now : SimTime) (info : S) (app app₀ : AVBLearningControllerApp S) :
    ∃ s, loadOfflineConfigFromXML names now info (stateElement names app) app₀ = some s ∧
      s.2.srpManager = app₀.srpManager ∧
      (∀ mac, (s.2.lookupTable.get info).find mac = ((app₀.lookupTable.get info).find mac).or
        (if mac = 0 then none else (exportedTable names app info).lookup mac)) ∧
      ∀ other ≠ info, s.2.lookupTable.get other = app₀.lookupTable.get other := by
  set mactable : S × Table MACAddress UInt32 → XMLElement := fun x =>
    .mk "mactable" (mactableTag names x.1).attributes
      (x.2.entries.map fun e => .mk "entry" (entryTag e).attributes []) with hmactable
  set macManager : XMLElement := .mk "macManager" [] (app.lookupTable.entries.map mactable)
    with hmacManager
  set controllerapp : XMLElement := .mk "controllerapp" controllerappTag.attributes
    [macManager, .mk "srpManager" [] []] with hcontrollerapp
  have hconfig : (stateElement names app).getFirstChildWithAttribute "controllerapp" "type"
      "AVBLearningControllerApp" = some controllerapp := by
    simp [XMLElement.getFirstChildWithAttribute, XMLElement.getChildrenByTagName, stateElement,
      XMLElement.tagName, XMLElement.getAttribute, controllerappTag, hcontrollerapp, hmacManager,
      hmactable]
  have hfirst : controllerapp.getFirstChildWithTag "macManager" = some macManager := by
    simp [XMLElement.getFirstChildWithTag, XMLElement.getChildrenByTagName, hcontrollerapp,
      hmacManager, XMLElement.tagName]
  have hsecond : controllerapp.getFirstChildWithTag "srpManager" = some (.mk "srpManager" [] []) := by
    simp [XMLElement.getFirstChildWithTag, XMLElement.getChildrenByTagName, hcontrollerapp,
      hmacManager, XMLElement.tagName]
  -- the entries below the address are those of the first table that has it
  have hentries : (macManager.getFirstChildWithAttribute "mactable" "switch_id"
      (names.getMacAddress info)).elim [] (·.getChildrenByTagName "entry") =
      (exportedTable names app info).map fun e => .mk "entry" (entryTag e).attributes [] := by
    have htables : macManager.getChildrenByTagName "mactable" =
        app.lookupTable.entries.map mactable :=
      SRPTable.getChildrenByTagName_map _ fun _ => rfl
    have hswitch (x : S × Table MACAddress UInt32) :
        (mactable x).getAttribute "switch_id" = some (names.getMacAddress x.1) := rfl
    unfold XMLElement.getFirstChildWithAttribute exportedTable
    rw [htables, List.find?_map]
    have hfound : (fun x => x.getAttribute "switch_id" == some (names.getMacAddress info)) ∘
        mactable = fun x : S × Table MACAddress UInt32 =>
          names.getMacAddress x.1 == names.getMacAddress info := by
      funext x
      rw [Function.comp_apply, hswitch]
      rfl
    rw [hfound]
    cases app.lookupTable.entries.find? fun x =>
        names.getMacAddress x.1 == names.getMacAddress info with
    | none => rfl
    | some x =>
      have hchildren : (XMLElement.mk "mactable" (mactableTag names x.1).attributes
          (x.2.entries.map fun e => .mk "entry" (entryTag e).attributes [])).getChildrenByTagName
            "entry" = x.2.entries.map fun e => .mk "entry" (entryTag e).attributes [] :=
        SRPTable.getChildrenByTagName_map _ fun _ => rfl
      exact hchildren
  obtain ⟨s, hs, hsrp, hfind, hother⟩ :=
    loadEntries_spec info (exportedTable names app info) (false, app₀)
  -- the reservations are written to an element without tables
  have himport : s.2.srpManager.importFromXML names now info (.mk "srpManager" [] []) =
      some (false, s.2.srpManager) := by
    simp [SRPTableManagement.importFromXML, XMLElement.tagName, XMLElement.getChildrenByTagName,
      SRPTableManagement.importTables]
  refine ⟨s, ?_, hsrp, hfind, hother⟩
  unfold loadOfflineConfigFromXML
  rw [hconfig]
  dsimp only
  rw [hfirst, Option.bind_some, hentries, hs, Option.bind_some, hsecond]
  dsimp only
  rw [himport]
  rfl

/-! ## The round trip -/

/-- The tables of a switch are those of the exported state: every specified address with its port,
and the reservations. -/
structure Restored (app app' : AVBLearningControllerApp S) (info : S) : Prop where
  macTable : ∀ mac, (app'.lookupTable.get info).find mac =
    if mac = 0 then none else (app.lookupTable.get info).find mac
  srpTable : (app.srpManager.srpTable info).SameReservations (app'.srpManager.srpTable info)

/-- The app with empty tables. -/
def cleared (app : AVBLearningControllerApp S) : AVBLearningControllerApp S :=
  { app with lookupTable := ∅, srpManager := { app.srpManager with srpTables := ∅ } }

/-- The document is loaded for some switches. -/
def loadAll (names : SwitchNames S) (now : SimTime) (xmlDoc : XMLElement) (switches : List S)
    (app : AVBLearningControllerApp S) : Option (AVBLearningControllerApp S) :=
  switches.foldlM (fun app info => (loadOfflineConfigFromXML names now info xmlDoc app).map (·.2)) app

/-- The text of the state is a document, and for the switches it is loaded for it gives their
tables to an app with empty tables, and no others. -/
def RoundTrips (names : SwitchNames S) (now : SimTime) (app : AVBLearningControllerApp S) : Prop :=
  ∃ xmlDoc, parse XMLElement.mk (app.stateToXML names) = .ok xmlDoc ∧
    ∀ switches : List S, switches.Nodup → ∃ app', loadAll names now xmlDoc switches app.cleared =
        some app' ∧
      (∀ info ∈ switches, app.Restored app' info) ∧
      ∀ info ∉ switches, app'.lookupTable.get info = ∅ ∧ app'.srpManager.srpTable info = {}

/-- Switches with the same address have the same specified entries. -/
def AddressesApart (names : SwitchNames S) (app : AVBLearningControllerApp S) : Prop :=
  ∀ info info', names.getMacAddress info = names.getMacAddress info' → ∀ mac ≠ 0,
    (app.lookupTable.get info).find mac = (app.lookupTable.get info').find mac

theorem loadAll_stateElement (now : SimTime) (app app₀ : AVBLearningControllerApp S)
    {switches : List S} (hnodup : switches.Nodup)
    (hempty : ∀ info ∈ switches, app₀.lookupTable.get info = ∅) :
    ∃ app', loadAll names now (stateElement names app) switches app₀ = some app' ∧
      app'.srpManager = app₀.srpManager ∧
      (∀ info ∈ switches, ∀ mac, (app'.lookupTable.get info).find mac =
        if mac = 0 then none else (exportedTable names app info).lookup mac) ∧
      ∀ info ∉ switches, app'.lookupTable.get info = app₀.lookupTable.get info := by
  induction switches generalizing app₀ with
  | nil => exact ⟨app₀, rfl, rfl, fun _ h => absurd h List.not_mem_nil, fun _ _ => rfl⟩
  | cons s rest ih =>
    obtain ⟨hnot, hrest⟩ := List.nodup_cons.mp hnodup
    obtain ⟨s₁, hs₁, hsrp₁, hfind₁, hother₁⟩ := load_stateElement names now s app app₀
    have hne : ∀ info ∈ rest, info ≠ s := fun info hinfo heq => hnot (heq ▸ hinfo)
    obtain ⟨app', happ', hsrp, hfind, hother⟩ := ih s₁.2 hrest fun info hinfo => by
      rw [hother₁ info (hne info hinfo)]
      exact hempty info (List.mem_cons_of_mem _ hinfo)
    refine ⟨app', ?_, hsrp.trans hsrp₁, fun info hinfo mac => ?_, fun info hinfo => ?_⟩
    · rw [loadAll, List.foldlM_cons, hs₁]
      exact happ'
    · rcases List.mem_cons.mp hinfo with rfl | hinfo
      · rw [hother info hnot, hfind₁, hempty info (List.mem_cons_self ..), Table.find_empty,
          Option.none_or]
      · exact hfind info hinfo mac
    · rw [hother info fun h => hinfo (List.mem_cons_of_mem _ h),
        hother₁ info fun h => hinfo (h ▸ List.mem_cons_self ..)]

/-- The first table that is written for the address of a switch is that of a switch with this
address, and there is none only if the switch has none. -/
theorem lookup_exportedTable (h : AddressesApart names app) {mac : MACAddress} (hmac : mac ≠ 0) :
    (exportedTable names app info).lookup mac = (app.lookupTable.get info).find mac := by
  unfold exportedTable
  cases hfound : app.lookupTable.entries.find? fun x =>
      names.getMacAddress x.1 == names.getMacAddress info with
  | none =>
    have hnone : app.lookupTable.find info = none := by
      cases hfind : app.lookupTable.find info with
      | none => rfl
      | some table =>
        have hnot := List.find?_eq_none.mp hfound _ (Table.mem_entries.mpr hfind)
        simp at hnot
    rw [Table.get, hnone]
    rfl
  | some x =>
    have haddress := List.find?_some hfound
    have hentry : app.lookupTable.find x.1 = some x.2 :=
      Table.mem_entries.mp (List.mem_of_find?_eq_some hfound)
    have htable : app.lookupTable.get x.1 = x.2 := by rw [Table.get, hentry]; rfl
    rw [← h x.1 info (by simpa using haddress) mac hmac, htable]
    rfl

/-- The state comes back if and only if there are no SRP tables, whose attribute is not closed, and
switches with the same address have the same specified entries. -/
theorem stateRoundTrips_iff (names : SwitchNames S) (now : SimTime)
    (app : AVBLearningControllerApp S) : RoundTrips names now app ↔
      app.srpManager.srpTables.entries = [] ∧ AddressesApart names app := by
  constructor
  · rintro ⟨xmlDoc, hparse, hload⟩
    have hempty : app.srpManager.srpTables.entries = [] := by
      by_contra hne
      rw [parse_stateToXML_of_ne names app hne] at hparse
      cases hparse
    refine ⟨hempty, ?_⟩
    rw [parse_stateToXML names app hempty] at hparse
    obtain rfl := Except.ok.inj hparse
    -- loading for one switch alone, which gets back what was exported under its address
    have hexported : ∀ info, ∀ mac ≠ 0,
        (app.lookupTable.get info).find mac = (exportedTable names app info).lookup mac := by
      intro info mac hmac
      obtain ⟨app', happ', hrestored, -⟩ := hload [info] (List.nodup_singleton _)
      obtain ⟨app'', happ'', -, hfind, -⟩ := loadAll_stateElement names now app app.cleared
        (List.nodup_singleton info) fun _ _ => rfl
      obtain rfl := Option.some.inj (happ'.symm.trans happ'')
      have hmacTable := (hrestored info (List.mem_singleton_self _)).macTable mac
      rw [hfind info (List.mem_singleton_self _), if_neg hmac, if_neg hmac] at hmacTable
      exact hmacTable.symm
    intro info info' haddress mac hmac
    -- the export knows the switches by their addresses only
    have htable : exportedTable names app info = exportedTable names app info' := by
      rw [exportedTable, haddress, exportedTable]
    rw [hexported info mac hmac, hexported info' mac hmac, htable]
  · rintro ⟨hempty, hapart⟩
    refine ⟨_, parse_stateToXML names app hempty, fun switches hnodup => ?_⟩
    obtain ⟨app', happ', hsrp, hfind, hother⟩ := loadAll_stateElement names now app app.cleared
      hnodup fun _ _ => rfl
    have hsrpTable (info : S) : app'.srpManager.srpTable info = {} := by
      rw [hsrp]
      rfl
    refine ⟨app', happ', fun info hinfo => ⟨fun mac => ?_, ?_⟩, fun info hinfo =>
      ⟨hother info hinfo, hsrpTable info⟩⟩
    · rw [hfind info hinfo]
      split_ifs with hmac
      · rfl
      · exact lookup_exportedTable names hapart hmac
    · have hnone : app.srpManager.srpTable info = {} := by
        rw [SRPTableManagement.srpTable, Table.find, hempty]
        rfl
      rw [hsrpTable, hnone]
      exact ⟨fun _ _ => rfl, fun _ _ _ => rfl⟩

/-- One switch, the paths of whose modules are empty. -/
def oneSwitch : SwitchNames Unit := ⟨fun _ => some 1, fun _ _ => "", fun _ _ => none⟩

/-- The SRP table of a switch is exported even when it is empty, with the attribute not closed. -/
theorem not_roundTrips_of_srpTable : ¬∀ app : AVBLearningControllerApp Unit,
    RoundTrips oneSwitch 0 app := by
  intro h
  obtain ⟨xmlDoc, hparse, -⟩ := h { srpManager := ⟨0, ⟨[((), {})], by simp⟩⟩ }
  rw [parse_stateToXML_of_ne oneSwitch _ (List.cons_ne_nil _ _)] at hparse
  cases hparse

end AVBLearningControllerApp

end TsnReconfig.Avb
