import SqlMapper.Proofs.CommandLine.Check
import SqlMapper.Proofs.Completion.Offer
import SqlMapper.Proofs.Model.Merging
import SqlMapper.Sample.Users

/-!
# Completion lists as they are shown

What is written for people are the visible items of a list, what is written for programs are all of
them. Since a list never hides an item of its own, both show the same names in the same order.

## Main definitions

* `CommandLine.itemsText`, `CommandLine.itemsJsonText`: what is written about items, for people and
  for programs.

## Main statements

* `Project.exists_complete`: what a project offers is a completion list.
* `CommandLine.completionOutcome_human`, `CommandLine.completionOutcome_json`: what is written.
* `CommandLine.complete_consistent`: lists and what is shown of them do not contradict themselves.
-/

namespace SqlMapper

/-- What a project offers is the completion list for some parameters and some text, also where it
offers nothing. -/
theorem Project.exists_complete (p : Project) (uri : FileUri) (position : Position) :
    ∃ parameters raw, (p.completions? uri position).getD CompletionList.empty =
      complete p.types.introspector p.settings.markers parameters raw := by
  have hempty : CompletionList.empty =
      complete p.types.introspector p.settings.markers [] "" :=
    (complete_of_isEmpty _ _ _ rfl).symm
  rw [completions?]
  split
  · exact ⟨[], "", hempty⟩
  · dsimp only
    split
    · exact ⟨[], "", hempty⟩
    · exact ⟨_, _, Option.getD_some⟩

/-- A text that is given by its characters is read from them. -/
theorem Json.parse?_ofList (cs : List Char) :
    Json.parse? (String.ofList cs) =
      (Json.readValue? (2 * cs.length + 2) cs).bind fun p =>
        if (Json.skipSpaces p.2).isEmpty then some p.1 else none := by
  rw [Json.parse?, String.toList_ofList]
  rfl

namespace CommandLine

/-! ### What is written -/

/-- What is written about items for people: one line each. -/
def itemsText (colors : Bool) (items : List CompletionItem) : String :=
  if items = [] then Style.yellow.paint colors "No completions" ++ "\n"
  else String.join (items.map fun item =>
    Style.bold.paint colors item.label ++ "  " ++ Style.cyan.paint colors item.kind.name ++ "  " ++
      Style.dimmed.paint colors item.detail ++ "\n")

/-- What is written about an item for programs. -/
def itemJsonText (item : CompletionItem) : String :=
  "    \x7b\n" ++
  "      \"detail\": " ++ Json.quote item.detail ++ ",\n" ++
  "      \"kind\": " ++ Json.quote item.kind.name ++ ",\n" ++
  "      \"label\": " ++ Json.quote item.label ++ "\n" ++
  "    \x7d"

/-- What is written about items for programs, with the text by which they are narrowed down. -/
def itemsJsonText (items : List CompletionItem) (filterText : Option String) : String :=
  "\x7b\n" ++
  "  \"items\": " ++
    (if items = [] then "[]" else "[\n" ++ Text.join ",\n" (items.map itemJsonText) ++ "\n  ]") ++
    ",\n" ++
  "  \"prefix\": " ++ filterText.elim "null" Json.quote ++ "\n" ++
  "\x7d\n"

theorem prettyAt_itemJson (item : CompletionItem) :
    Json.indentation 2 ++ (itemJson item).prettyAt 2 = itemJsonText item := by
  have hnames : Json.quote "detail" = "\"detail\"" ∧ Json.quote "kind" = "\"kind\"" ∧
      Json.quote "label" = "\"label\"" := by decide
  have hlevels : Json.indentation 2 = "    " ∧ Json.indentation 3 = "      " := by decide
  rw [itemJson, Json.prettyAt_ofMembers _ (List.cons_ne_nil _ _)]
  simp only [List.map_cons, List.map_nil]
  rw [Json.prettyAt_ofText, Json.prettyAt_ofText, Json.prettyAt_ofText]
  simp only [Text.join, Nat.reduceAdd, hnames, hlevels]
  unfold itemJsonText
  rw [← String.toList_inj]
  simp

theorem prettyAt_items (items : List CompletionItem) :
    (Json.array (items.map itemJson)).prettyAt 1 =
      if items = [] then "[]"
      else "[\n" ++ Text.join ",\n" (items.map itemJsonText) ++ "\n  ]" := by
  split
  case isTrue h =>
    subst h
    rfl
  case isFalse h =>
    have hlevel : Json.indentation 1 = "  " := rfl
    rw [Json.prettyAt_array 1 (by simpa using h), List.map_map, hlevel]
    simp only [Function.comp_def, Nat.reduceAdd, prettyAt_itemJson]
    rw [← String.toList_inj]
    simp

theorem pretty_items (items : List CompletionItem) (filterText : Json) :
    (Json.ofMembers [("items", .array (items.map itemJson)), ("prefix", filterText)]).pretty =
      "\x7b\n" ++
      "  \"items\": " ++ (Json.array (items.map itemJson)).prettyAt 1 ++ ",\n" ++
      "  \"prefix\": " ++ filterText.prettyAt 1 ++ "\n" ++
      "\x7d" := by
  have hnames : Json.quote "items" = "\"items\"" ∧ Json.quote "prefix" = "\"prefix\"" := by decide
  have hlevels : Json.indentation 0 = "" ∧ Json.indentation 1 = "  " := by decide
  rw [Json.pretty, Json.prettyAt_ofMembers _ (List.cons_ne_nil _ _)]
  simp only [List.map_cons, List.map_nil, Text.join, Nat.reduceAdd, hnames, hlevels]
  generalize (Json.array (items.map itemJson)).prettyAt 1 = shown
  rw [← String.toList_inj]
  simp

theorem pretty_completionJson (list : CompletionList) :
    (completionJson list).pretty ++ "\n" = itemsJsonText list.items list.filterText := by
  obtain ⟨filterText, items⟩ := list
  have hfilter : ∃ value : Json, value.prettyAt 1 = filterText.elim "null" Json.quote ∧
      completionJson ⟨filterText, items⟩ =
        .ofMembers [("items", .array (items.map itemJson)), ("prefix", value)] := by
    cases filterText with
    | none => exact ⟨.null, Json.prettyAt_null 1, rfl⟩
    | some text => exact ⟨.ofText text, Json.prettyAt_ofText 1 text, rfl⟩
  obtain ⟨value, hvalue, hlist⟩ := hfilter
  rw [hlist, pretty_items, hvalue, prettyAt_items, itemsJsonText, ← String.toList_inj]
  simp

theorem completionOutcome_json (colors : Bool) (list : CompletionList) :
    completionOutcome colors .json list =
      { code := .success, out := itemsJsonText list.items list.filterText } := by
  rw [← pretty_completionJson]
  simp [completionOutcome, unlines]

theorem completionOutcome_human (colors : Bool) (list : CompletionList) :
    completionOutcome colors .human list =
      { code := .success, out := itemsText colors list.visible } := by
  have hlines : unlines (completionLines colors list) = itemsText colors list.visible := by
    unfold completionLines itemsText
    by_cases hnone : list.visible = []
    · simp [hnone, unlines]
    · simp [hnone, unlines, itemLine, Function.comp_def]
  rw [completionOutcome, hlines]

/-! ### The command -/

section Running

variable {m : Type → Type} [Monad m] [LawfulMonad m] {s : Surroundings m}
  {settingsFile : Option String} {file : String}

theorem run_complete_of_error {e : Failure}
    (h : loadWithFile s settingsFile file = pure (.error e)) (colors : Bool) (line character : Nat)
    (format : OutputFormat) :
    Command.run s settingsFile colors (.complete file line character format) =
      pure (e.outcome colors) := by
  rw [Command.run, h, pure_bind]

theorem run_complete {project : Project} {uri : FileUri}
    (h : loadWithFile s settingsFile file = pure (.ok (project, uri))) (colors : Bool)
    (line character : Nat) (format : OutputFormat) :
    Command.run s settingsFile colors (.complete file line character format) =
      pure (completionOutcome colors format
        ((project.completions? uri ⟨line - 1, character - 1⟩).getD CompletionList.empty)) := by
  rw [Command.run, h, pure_bind]

end Running

/-- With settings, the files that they name and a file, the project has all of them. -/
theorem loadWithFile_eq_ok {s : Surroundings Id} {settingsFile : Option String}
    {found : Setup} {g : Gathered} {text : String}
    (hsetup : (setup s settingsFile).run = .ok found)
    (hgather : (gather s.access found.settings found.base).run = .ok g) (file : String)
    (hread : (s.access.read (Path.absolute s.cwd file)).run = .ok text) :
    loadWithFile s settingsFile file =
      .ok ((Project.empty.adopt g).addFile (.ofPath (Path.absolute s.cwd file)) text,
        .ofPath (Path.absolute s.cwd file)) := by
  have hload : (loadProject s settingsFile).run = .ok (Project.empty.adopt g, g.report) :=
    loadProject_eq_ok hsetup hgather
  change (loadWithFile s settingsFile file).run = _
  simp [loadWithFile, hload, openFile, hread]

/-- A completion list shows all of its items, no name twice, and items of one kind only: parameters
if the path being typed has a single name, properties otherwise. Nothing is asked of the marks, which
may be empty, of the depth, which may be zero, or of the types. The command fails for people and for
programs alike if the project or the file cannot be loaded. Otherwise what the project offers is such
a list, and the command writes its visible items for people and all of its items for programs, which
are the same in the same order. -/
theorem complete_consistent (types : Introspector) (m : Markers) (parameters : List Parameter)
    (raw : String) :
    (complete types m parameters raw).visible = (complete types m parameters raw).items ∧
    (complete types m parameters raw).labels.Nodup ∧
    (∃ kind, (∀ item ∈ (complete types m parameters raw).items, item.kind = kind) ∧
      (kind = .parameter ↔
        ∃ path, tokenize? m raw = some path ∧ path.segments.length = 1)) ∧
    ∀ (s : Surroundings Id) (settingsFile : Option String) (colors : Bool) (file : String)
      (line character : Nat),
      (∀ e, loadWithFile s settingsFile file = .error e → ∀ format,
        Command.run s settingsFile colors (.complete file line character format) =
          e.outcome colors) ∧
      ∀ project uri list, loadWithFile s settingsFile file = .ok (project, uri) →
        list = (project.completions? uri ⟨line - 1, character - 1⟩).getD CompletionList.empty →
        (∃ parameters raw, list =
          complete project.types.introspector project.settings.markers parameters raw) ∧
        list.visible = list.items ∧ list.labels.Nodup ∧
        Command.run s settingsFile colors (.complete file line character .human) =
          { code := .success, out := itemsText colors list.visible } ∧
        Command.run s settingsFile colors (.complete file line character .json) =
          { code := .success, out := itemsJsonText list.items list.filterText } := by
  refine ⟨visible_complete types m parameters raw, nodup_labels_complete types m parameters raw,
    ?_, fun s settingsFile colors file line character => ⟨?_, ?_⟩⟩
  · by_cases hsingle : ∃ path, tokenize? m raw = some path ∧ path.segments.length = 1
    · refine ⟨.parameter, fun item hitem => (kind_eq_parameter_iff hitem).2 hsingle, ?_⟩
      exact iff_of_true rfl hsingle
    · refine ⟨.property, fun item hitem => ?_, iff_of_false (by decide) hsingle⟩
      have hother : item.kind ≠ .parameter := mt (kind_eq_parameter_iff hitem).1 hsingle
      cases hkind : item.kind with
      | parameter => exact absurd hkind hother
      | property => rfl
  · intro e hload format
    exact run_complete_of_error hload colors line character format
  · rintro project uri list hload rfl
    obtain ⟨offered, text, hlist⟩ := project.exists_complete uri ⟨line - 1, character - 1⟩
    rw [run_complete hload, run_complete hload, hlist]
    refine ⟨⟨offered, text, rfl⟩, visible_complete _ _ _ _, nodup_labels_complete _ _ _ _, ?_, ?_⟩
    · exact completionOutcome_human colors _
    · exact completionOutcome_json colors _

/-- What is offered behind `u.a` for a user that is called `u`. -/
def userMembers : CompletionList :=
  complete Sample.users.introspector .standard
    [⟨"user", "com.example.User", some ⟨some "u"⟩⟩] "#\x7bu.a\x7d"

/-- A type with two members that begin with `a`. -/
def userJson : String :=
  "\x7b\"types\":[\x7b\"name\":\"U\",\"fields\":[" ++
    "\x7b\"name\":\"age\",\"type\":\"int\"\x7d,\x7b\"name\":\"act\",\"type\":\"bool\"\x7d" ++
  "]\x7d]\x7d"

/-- An interface whose method has a parameter of this type. -/
def mapperJson : String :=
  "\x7b\"types\":[\x7b\"name\":\"M\",\"methods\":[\x7b\"name\":\"f\",\"parameters\":[" ++
    "\x7b\"name\":\"u\",\"type\":\"U\",\"annotations\":[\x7b\"name\":\"Param\"\x7d]\x7d" ++
  "]\x7d]\x7d]\x7d"

/-- The files of a directory with these types and with a statement in which a path is being typed. -/
def typingFiles : List (String × String) :=
  [("/w/s.json", "\x7b\"mappers\":\"-\",\"types\":[\"u.json\",\"m.json\"]\x7d"),
    ("/w/u.json", userJson), ("/w/m.json", mapperJson),
    ("/w/m.xml", "<select id='f' namespace='M'>#\x7bu.a</select>")]

/-- The surroundings of a command in this directory. -/
def typingSurroundings : Surroundings Id where
  access :=
    { isFile := fun path => (typingFiles.lookup path).isSome
      isDirectory := fun path => path == "/w"
      names := fun _ => ["m.json", "m.xml", "s.json", "u.json"]
      read := fun path => (typingFiles.lookup path).elim (.error .notFound) .ok }
  cwd := "/w"
  colors := {}
  elapsed := "0.00"

/-- The classes in the files of this directory. -/
def typingClasses : List (List ClassDecl) :=
  [[⟨"U", none, [], [⟨"age", "int"⟩, ⟨"act", "bool"⟩], []⟩],
    [⟨"M", none, [], [], [⟨"f", none, [⟨"u", "U", [⟨"Param", none⟩]⟩]⟩]⟩]]

theorem load_typingClasses :
    (TypeModel.load typingSurroundings.access ["/w/u.json", "/w/m.json"]).run =
      .ok (TypeModel.ofClasses typingClasses.flatten) := by
  have huser : TypeModel.classesIn? "/w/u.json" userJson =
      some [⟨"U", none, [], [⟨"age", "int"⟩, ⟨"act", "bool"⟩], []⟩] := by
    change (Json.parse? userJson).bind ClassDecl.readAll? = _
    unfold userJson
    -- as a list of characters the text does not have to be decoded
    rw [← String.ofList_append, ← String.ofList_append, Json.parse?_ofList]
    decide +kernel
  have hmapper : TypeModel.classesIn? "/w/m.json" mapperJson =
      some [⟨"M", none, [], [], [⟨"f", none, [⟨"u", "U", [⟨"Param", none⟩]⟩]⟩]⟩] := by
    change (Json.parse? mapperJson).bind ClassDecl.readAll? = _
    unfold mapperJson
    rw [← String.ofList_append, ← String.ofList_append, Json.parse?_ofList]
    decide +kernel
  have hdeclares : List.Forall₂ (TypeModel.Declares typingSurroundings.access)
      ["/w/u.json", "/w/m.json"] typingClasses :=
    .cons ⟨userJson, rfl, huser⟩ (.cons ⟨mapperJson, rfl, hmapper⟩ .nil)
  exact TypeModel.indexed_empty.mergeFiles_eq hdeclares

/-- The members that are offered there: those that begin with what is typed. -/
def typingItems : List CompletionItem :=
  [⟨"age", .property, "int"⟩, ⟨"act", .property, "bool"⟩]

theorem exists_loadWithFile_typing :
    ∃ project uri, loadWithFile typingSurroundings (some "/w/s.json") "m.xml" =
        .ok (project, uri) ∧
      ⟨some "a", typingItems⟩ =
        (project.completions? uri ⟨0, 34⟩).getD CompletionList.empty := by
  have hsetup : (setup typingSurroundings (some "/w/s.json")).run =
      .ok ⟨{ mappers := .one "-", types := some (.many ["u.json", "m.json"]) }, "/w"⟩ := by
    decide +kernel
  have htypeFiles : (Settings.typeFiles typingSurroundings.access
      { mappers := .one "-", types := some (.many ["u.json", "m.json"]) } "/w").run =
        .ok ["/w/u.json", "/w/m.json"] := by decide +kernel
  have hmapperFiles : (Settings.mapperFiles typingSurroundings.access
      { mappers := .one "-", types := some (.many ["u.json", "m.json"]) } "/w").run =
        .ok [] := by decide +kernel
  have hgather := gather_of_ok htypeFiles load_typingClasses hmapperFiles
  exact ⟨_, _, loadWithFile_eq_ok hsetup hgather "m.xml" rfl, by decide +kernel⟩

/-- What the command writes for people there. -/
def typingText : String :=
  "age  property  int\nact  property  bool\n"

/-- What the command writes for programs there. -/
def typingJson : String :=
  "\x7b\n" ++
  "  \"items\": [\n" ++
  "    \x7b\n" ++
  "      \"detail\": \"int\",\n" ++
  "      \"kind\": \"property\",\n" ++
  "      \"label\": \"age\"\n" ++
  "    \x7d,\n" ++
  "    \x7b\n" ++
  "      \"detail\": \"bool\",\n" ++
  "      \"kind\": \"property\",\n" ++
  "      \"label\": \"act\"\n" ++
  "    \x7d\n" ++
  "  ],\n" ++
  "  \"prefix\": \"a\"\n" ++
  "\x7d\n"

/-- Three members are offered, and all of them are shown. In the directory the command writes both
members that begin with what is typed, for people and for programs. -/
theorem complete_consistent_userMembers :
    userMembers.labels = ["address", "age", "active"] ∧ userMembers.visible = userMembers.items ∧
      (∀ item ∈ userMembers.items, item.kind = .property) ∧
      Command.run typingSurroundings (some "/w/s.json") false
          (.complete "m.xml" 1 35 .human) = { code := .success, out := typingText } ∧
      Command.run typingSurroundings (some "/w/s.json") false
          (.complete "m.xml" 1 35 .json) = { code := .success, out := typingJson } := by
  obtain ⟨hvisible, -, ⟨kind, hkind, hsingle⟩, hrun⟩ := complete_consistent
    Sample.users.introspector .standard [⟨"user", "com.example.User", some ⟨some "u"⟩⟩]
    "#\x7bu.a\x7d"
  have hpath : tokenize? .standard "#\x7bu.a\x7d" = some ⟨["u", "a"], true⟩ := by decide +kernel
  have hother : kind ≠ .parameter := by
    rw [ne_eq, hsingle, hpath]
    rintro ⟨path, hsome, hone⟩
    obtain rfl := Option.some.inj hsome
    cases hone
  have hproperty : ∀ item ∈ userMembers.items, item.kind = .property := by
    intro item hitem
    rw [hkind item hitem]
    cases kind with
    | parameter => exact absurd rfl hother
    | property => rfl
  obtain ⟨project, uri, hload, hlist⟩ := exists_loadWithFile_typing
  obtain ⟨-, hshown, -, hhuman, hjson⟩ :=
    (hrun typingSurroundings (some "/w/s.json") false "m.xml" 1 35).2 project uri _ hload hlist
  have htext : itemsText false typingItems = typingText := by decide +kernel
  have hjsonText : itemsJsonText typingItems (some "a") = typingJson := by decide +kernel
  rw [hshown, htext] at hhuman
  rw [hjsonText] at hjson
  exact ⟨by decide +kernel, hvisible, hproperty, hhuman, hjson⟩

end CommandLine

end SqlMapper
