import Intake.Proofs.Marker
import Intake.Proofs.Overlay
/-!
# Inheritance — the nearest configuration file has the last word

The configuration of a key is a stack of documents, one for each folder above the key that has a file of the name, laid
over each other from the root on.  Under each path of names the nearest document that has a say about it decides
(`ChildWins`), for the configuration of a load and for that of an external table (`ConfigFiles.child_wins`).
-/
namespace Intake
namespace ConfigFiles

/-! ## The folders above a key -/

/-- **A configuration folder above a key**: that of the root, or of a directory that the key lies in. -/
def IsAbove (key folder : String) : Prop :=
  folder = "_config" ∨ ∃ dir rest, dir ≠ "" ∧ key = dir ++ "/" ++ rest ∧ folder = dir ++ "/_config"

theorem mem_directoriesOf_append (dir rest : List Char) : dir ∈ directoriesOf (dir ++ '/' :: rest) := by
  induction dir with
  | nil => simp [directoriesOf]
  | cons c dir ih =>
    have hdeeper : c :: dir ∈ (directoriesOf (dir ++ '/' :: rest)).map (c :: ·) := List.mem_map_of_mem ih
    rw [List.cons_append, directoriesOf]
    split
    · exact List.mem_cons_of_mem _ hdeeper
    · exact hdeeper

theorem pairwise_directoriesOf (l : List Char) : (directoriesOf l).Pairwise fun a b => a.length < b.length := by
  induction l with
  | nil => exact List.Pairwise.nil
  | cons c l ih =>
    have hdeeper : ((directoriesOf l).map (c :: ·)).Pairwise fun a b => a.length < b.length :=
      List.pairwise_map.2 (ih.imp fun h => by simpa using h)
    rw [directoriesOf]
    split
    · refine List.pairwise_cons.2 ⟨fun dir hdir => ?_, hdeeper⟩
      obtain ⟨_, -, rfl⟩ := List.mem_map.1 hdir
      simp
    · exact hdeeper

/-- A key looks into the folders above it. -/
theorem mem_folders_iff {key folder : String} : folder ∈ folders key ↔ IsAbove key folder := by
  rw [folders_eq, List.mem_append, List.mem_singleton, List.mem_map, or_comm]
  refine or_congr Iff.rfl ?_
  constructor
  · rintro ⟨dir, hdir, rfl⟩
    rw [List.mem_reverse, List.mem_filter] at hdir
    obtain ⟨rest, hrest⟩ := eq_of_mem_directoriesOf hdir.1
    refine ⟨String.ofList dir, String.ofList rest, fun he => ?_, ?_, rfl⟩
    · rw [← String.toList_inj, String.toList_ofList] at he
      rw [he] at hdir
      simp at hdir
    · rw [← String.toList_inj, hrest]
      simp
  · rintro ⟨dir, rest, hdir, rfl, rfl⟩
    refine ⟨dir.toList, List.mem_reverse.2 (List.mem_filter.2 ⟨?_, ?_⟩), by rw [String.ofList_toList]⟩
    · have := mem_directoriesOf_append dir.toList rest.toList
      simpa using this
    · simpa using hdir

/-- The nearest folder comes first. -/
theorem pairwise_folders (key : String) : (folders key).Pairwise fun a b => b.length < a.length := by
  rw [folders_eq, List.pairwise_append]
  refine ⟨List.pairwise_map.2 (List.pairwise_reverse.2 ?_), List.pairwise_singleton _ _, fun a ha b hb => ?_⟩
  · refine ((pairwise_directoriesOf key.toList).filter _).imp fun h => ?_
    simpa [String.length_append] using h
  · obtain ⟨dir, -, rfl⟩ := List.mem_map.1 ha
    obtain rfl := List.mem_singleton.1 hb
    rw [String.length_append]
    have : "_config".length < "/_config".length := by decide
    omega

end ConfigFiles

/-! ## The documents of a stack -/

namespace Store

def configFile? (store : Store) (name folder : String) : Option ConfigFile :=
  (store.get? (Key.join folder name)).map fun object => ⟨Key.join folder name, object.body⟩

def configDoc? (store : Store) (name folder : String) : Option Json :=
  (store.configFile? name folder).bind fun file => (ConfigFiles.readObject file).toOption

/-- The files of a name above a key hold JSON objects. -/
def Readable (store : Store) (key name : String) : Prop :=
  ∀ folder, ConfigFiles.IsAbove key folder → ∀ file, store.configFile? name folder = some file →
    ∃ doc, ConfigFiles.readObject file = .ok doc

/-- The files of a name above a key, that of the root first. -/
def configFiles (store : Store) (key name : String) : List ConfigFile :=
  (ConfigFiles.folders key).reverse.filterMap (store.configFile? name)

/-- The documents that the files of a name above a key hold, that of the root first. -/
def configDocs (store : Store) (key name : String) : List Json :=
  (ConfigFiles.folders key).reverse.filterMap (store.configDoc? name)

variable {store : Store} {key name : String}

theorem gives_findIn (hname : holdsText "*" name = false) (folder : String) :
    store.gives (ConfigFiles.findIn folder name) = some (store.configFile? name folder) := by
  rw [ConfigFiles.findIn, hname, Bool.not_false, if_pos rfl, gives_bind, gives_get?, Option.bind_some, gives_pure,
    Option.map_map]
  rfl

/-- The files of a name in some folders are found, those of the later folders first. -/
theorem gives_findAllIn (hname : holdsText "*" name = false) (folders : List String) :
    store.gives (ConfigFiles.findAllIn name folders) = some (folders.reverse.filterMap (store.configFile? name)) := by
  induction folders with
  | nil => rfl
  | cons folder rest ih =>
    rw [ConfigFiles.findAllIn, gives_bind, gives_findIn hname, Option.bind_some, gives_bind, ih, Option.bind_some,
      gives_pure, List.reverse_cons, List.filterMap_append]
    cases hfile : store.configFile? name folder with
    | none => rw [List.filterMap_cons_none hfile]; rfl
    | some file => rw [List.filterMap_cons_some hfile]; rfl

theorem gives_findAll (hname : holdsText "*" name = false) (key : String) :
    store.gives (ConfigFiles.findAll key name) = some (store.configFiles key name) :=
  gives_findAllIn hname _

end Store

namespace ConfigFiles

/-- A file holds the object that its octets write, with the fields in order. -/
theorem readObject_eq_ok_iff {file : ConfigFile} {doc : Json} : readObject file = .ok doc ↔
    ∃ value, Json.readAll file.body = .ok value ∧ value.sortFields = doc ∧ doc.isObject = true := by
  unfold readObject
  cases hread : Json.readAll file.body with
  | error fault =>
    constructor
    · intro h
      cases h
    · rintro ⟨value, h, -⟩
      cases h
  | ok value =>
    simp only [Except.mapError, bind, Except.bind]
    constructor
    · intro h
      refine ⟨value, rfl, ?_⟩
      cases hsorted : value.sortFields with
      | object fields => rw [hsorted] at h; cases h; exact ⟨rfl, rfl⟩
      | _ => rw [hsorted] at h; cases h
    · rintro ⟨value, h, rfl, hobject⟩
      cases h
      cases hsorted : value.sortFields with
      | object fields => rfl
      | _ => rw [hsorted] at hobject; cases hobject

theorem inOrder_of_readObject {file : ConfigFile} {doc : Json} (h : readObject file = .ok doc) : doc.InOrder := by
  obtain ⟨value, -, rfl, -⟩ := readObject_eq_ok_iff.1 h
  exact value.inOrder_sortFields

theorem layOver_eq {files : List ConfigFile} (hfiles : ∀ file ∈ files, ∃ doc, readObject file = .ok doc) (base : Json) :
    layOver base files = .ok ((files.filterMap fun file => (readObject file).toOption).foldl Json.merge base) := by
  induction files generalizing base with
  | nil => rfl
  | cons file files ih =>
    obtain ⟨⟨doc, hdoc⟩, hfiles⟩ := List.forall_mem_cons.1 hfiles
    rw [layOver, List.filterMap_cons, hdoc]
    exact ih hfiles _

end ConfigFiles

namespace Store

variable {store : Store} {key name : String}

theorem inOrder_of_configDoc? {folder : String} {doc : Json} (h : store.configDoc? name folder = some doc) :
    doc.InOrder := by
  obtain ⟨file, -, hdoc⟩ := Option.bind_eq_some_iff.1 h
  cases hread : ConfigFiles.readObject file with
  | error e => rw [hread] at hdoc; cases hdoc
  | ok value => rw [hread] at hdoc; cases hdoc; exact ConfigFiles.inOrder_of_readObject hread

theorem exists_of_mem_configDocs {doc : Json} (h : doc ∈ store.configDocs key name) :
    ∃ folder, ConfigFiles.IsAbove key folder ∧ store.configDoc? name folder = some doc := by
  obtain ⟨folder, hfolder, hdoc⟩ := List.mem_filterMap.1 h
  exact ⟨folder, ConfigFiles.mem_folders_iff.1 (List.mem_reverse.1 hfolder), hdoc⟩

/-- After the document of a folder come those of nearer folders only. -/
theorem exists_configDocs_eq {folder : String} {doc : Json} (hfolder : ConfigFiles.IsAbove key folder)
    (hdoc : store.configDoc? name folder = some doc) : ∃ far near, store.configDocs key name = far ++ doc :: near ∧
      ∀ other ∈ near, ∃ nearer, ConfigFiles.IsAbove key nearer ∧ folder.length < nearer.length ∧
        store.configDoc? name nearer = some other := by
  obtain ⟨nearer, farther, hsplit⟩ := List.append_of_mem (ConfigFiles.mem_folders_iff.2 hfolder)
  refine ⟨farther.reverse.filterMap (store.configDoc? name), nearer.reverse.filterMap (store.configDoc? name), ?_, ?_⟩
  · rw [configDocs, hsplit, List.reverse_append, List.reverse_cons, List.append_assoc, List.filterMap_append,
      List.singleton_append, List.filterMap_cons_some hdoc]
  · intro other hother
    obtain ⟨other', hmem, hother⟩ := List.mem_filterMap.1 hother
    have hmem : other' ∈ nearer := List.mem_reverse.1 hmem
    have hlonger := ConfigFiles.pairwise_folders key
    rw [hsplit, List.pairwise_append] at hlonger
    refine ⟨other', ConfigFiles.mem_folders_iff.1 ?_, hlonger.2.2 other' hmem folder List.mem_cons_self, hother⟩
    rw [hsplit]
    exact List.mem_append_left _ hmem

/-- Files that hold objects are laid over each other. -/
theorem layOver_configFiles (h : store.Readable key name) (base : Json) :
    ConfigFiles.layOver base (store.configFiles key name) =
      .ok ((store.configDocs key name).foldl Json.merge base) := by
  rw [ConfigFiles.layOver_eq, configFiles, List.filterMap_filterMap]
  · rfl
  · intro file hfile
    obtain ⟨folder, hfolder, hfile⟩ := List.mem_filterMap.1 hfile
    exact h folder (ConfigFiles.mem_folders_iff.1 (List.mem_reverse.1 hfolder)) file hfile

end Store

namespace ConfigFiles

/-- **The nearest file has the last word.**  Under a path of names the nearest document that has a say about it decides,
unless it has an object there; where none has, the base stays; and the nearest document laid over once more changes
nothing. -/
structure ChildWins (store : Store) (key name : String) (base config : Json) : Prop where
  nearest : ∀ path folder doc, IsAbove key folder → store.configDoc? name folder = some doc → doc.Decides path →
    (∀ nearer other, IsAbove key nearer → folder.length < nearer.length → store.configDoc? name nearer = some other →
      ¬ other.Decides path) →
    (∀ v, v.isObject = false → (config.at? path = some v ↔ doc.at? path = some v)) ∧
      (doc.at? path = none → config.at? path = none)
  untouched : ∀ path,
    (∀ folder doc, IsAbove key folder → store.configDoc? name folder = some doc → ¬ doc.Decides path) →
      config.at? path = base.at? path
  again : ∀ folder doc, IsAbove key folder → store.configDoc? name folder = some doc →
    (∀ nearer, IsAbove key nearer → folder.length < nearer.length → store.configDoc? name nearer = none) →
      config.merge doc = config

theorem childWins_configDocs (store : Store) (key name : String) {base : Json} (hbase : base.InOrder) :
    ChildWins store key name base ((store.configDocs key name).foldl Json.merge base) where
  nearest path folder doc hfolder hdoc hdecides hnearer := by
    obtain ⟨far, near, hdocs, hnear⟩ := Store.exists_configDocs_eq hfolder hdoc
    rw [hdocs]
    refine Json.at?_foldl_merge_of_decides base (Store.inOrder_of_configDoc? hdoc) hdecides fun other hother => ?_
    obtain ⟨nearer, habove, hlonger, hother⟩ := hnear other hother
    exact ⟨Store.inOrder_of_configDoc? hother, hnearer nearer other habove hlonger hother⟩
  untouched path hundecided := by
    refine Json.at?_foldl_merge (fun doc hdoc => ?_) base
    obtain ⟨folder, hfolder, hdoc⟩ := Store.exists_of_mem_configDocs hdoc
    exact ⟨Store.inOrder_of_configDoc? hdoc, hundecided folder doc hfolder hdoc⟩
  again folder doc hfolder hdoc hnone := by
    obtain ⟨far, near, hdocs, hnear⟩ := Store.exists_configDocs_eq hfolder hdoc
    have hlast : near = [] := by
      refine List.eq_nil_iff_forall_not_mem.2 fun other hother => ?_
      obtain ⟨nearer, habove, hlonger, hother⟩ := hnear other hother
      rw [hnone nearer habove hlonger] at hother
      cases hother
    subst hlast
    have hfar : ∀ other ∈ far, other.InOrder := by
      intro other hother
      obtain ⟨_, -, hother⟩ := Store.exists_of_mem_configDocs (hdocs ▸ List.mem_append_left _ hother)
      exact Store.inOrder_of_configDoc? hother
    rw [hdocs, List.foldl_append, List.foldl_cons, List.foldl_nil]
    exact Json.merge_merge (Json.inOrder_foldl_merge hbase hfar) (Store.inOrder_of_configDoc? hdoc)

theorem inOrder_defaultExternalConfig : defaultExternalConfig.InOrder :=
  Json.inOrder_ofFields (by simpa using Json.inOrder_of_not_isObject rfl)

theorem inOrder_defaultLoadConfig : defaultLoadConfig.InOrder := by
  refine Json.inOrder_ofFields fun field hfield => ?_
  simp only [List.mem_cons, List.not_mem_nil, or_false] at hfield
  rcases hfield with rfl | rfl
  all_goals exact Json.inOrder_of_not_isObject rfl

/-- What the files are laid over: the base, with the default on it if there is no file. -/
def loadBase (store : Store) (key : String) (base : Json) : Json :=
  if (store.configFiles key "load.json").isEmpty then base.merge defaultLoadConfig else base

/-- The configuration of a load is the stack of the documents above the key. -/
theorem gives_loadConfig {store : Store} {key : String} (h : store.Readable key "load.json") (base : Json) :
    store.gives (loadConfig key base) =
      some ((store.configDocs key "load.json").foldl Json.merge (loadBase store key base)) := by
  have hover := Store.layOver_configFiles h (loadBase store key base)
  rw [loadConfig, Store.gives_bind, Store.gives_findAll (by decide), Option.bind_some]
  unfold loadBase at hover ⊢
  cases hfiles : store.configFiles key "load.json" with
  | nil =>
    rw [hfiles] at hover
    exact congrArg Except.toOption hover
  | cons file files =>
    rw [hfiles] at hover
    rw [Store.gives_ofExcept]
    exact congrArg Except.toOption hover

/-- The configuration of an external table names a format. -/
def namesFormat (config : Json) : Bool :=
  ((config.field? "sourceFormat").bind Json.string?).any fun format => !isBlankText format

/-- So is the configuration of an external table, if it names a format; else there is none. -/
theorem gives_externalConfig {store : Store} {key : String} (h : store.Readable key "external.json") :
    store.gives (externalConfig key) =
      (some ((store.configDocs key "external.json").foldl Json.merge defaultExternalConfig)).filter namesFormat := by
  rw [externalConfig, Store.gives_bind, Store.gives_findAll (by decide), Option.bind_some, Store.gives_bind,
    Store.gives_ofExcept, Store.layOver_configFiles h]
  generalize (store.configDocs key "external.json").foldl Json.merge defaultExternalConfig = config
  rw [Option.filter_some, namesFormat]
  show store.gives _ = _
  cases (config.field? "sourceFormat").bind Json.string? with
  | none => rfl
  | some format =>
    cases hblank : isBlankText format <;> simp [hblank]

/-- **Child wins.**  An object laid over another one replaces what is no object, under every path of names, and merges
what is; to lay it over again changes nothing.  So the configuration of a load and that of an external table have under
each path what the nearest file says that has a say about it. -/
theorem child_wins :
    (∀ base overlay : List (String × Json), (Json.object base).InOrder → (Json.object overlay).InOrder →
      (∀ path, path ≠ [] →
        Json.LaidAt (.object base) (.object overlay) ((Json.object base).merge (.object overlay)) path) ∧
      ((Json.object base).merge (.object overlay)).merge (.object overlay) =
        (Json.object base).merge (.object overlay)) ∧
    (∀ (store : Store) (key : String) (base : Json), base.InOrder → store.Readable key "load.json" →
      ∃ config, store.gives (loadConfig key base) = some config ∧
        ChildWins store key "load.json" (loadBase store key base) config) ∧
    ∀ (store : Store) (key : String), store.Readable key "external.json" →
      ∃ config, store.gives (externalConfig key) = (some config).filter namesFormat ∧
        ChildWins store key "external.json" defaultExternalConfig config := by
  refine ⟨fun base overlay hbase hoverlay => ?_, fun store key base hbase hread => ?_, fun store key hread => ?_⟩
  · exact ⟨fun path _ => Json.laidAt_merge _ hoverlay path, Json.merge_merge hbase hoverlay⟩
  · have hbottom : (loadBase store key base).InOrder := by
      unfold loadBase
      split
      · exact Json.inOrder_merge hbase inOrder_defaultLoadConfig
      · exact hbase
    exact ⟨_, gives_loadConfig hread base, childWins_configDocs store key "load.json" hbottom⟩
  · exact ⟨_, gives_externalConfig hread, childWins_configDocs store key "external.json" inOrder_defaultExternalConfig⟩

/-! ## Two files -/

def rowsDoc (rows : Int) : Json := .object [("skip", .object [("rows", .whole rows)])]

def isRowsDoc (rows : Int) : Except Json.Fault Json → Bool
  | .ok (.object [("skip", .object [("rows", .whole n)])]) => n == rows
  | _ => false

theorem eq_of_isRowsDoc {rows : Int} {read : Except Json.Fault Json} (h : isRowsDoc rows read = true) :
    read = .ok (rowsDoc rows) := by
  unfold isRowsDoc at h
  split at h
  · rw [beq_iff_eq.1 h, rowsDoc]
  · cases h

theorem sortFields_rowsDoc (rows : Int) : (rowsDoc rows).sortFields = rowsDoc rows := by
  simp [rowsDoc, Json.sortFields, Json.sortObject, Json.sortValues, Fields.ofList, Fields.insert]

def rowsText (rows : String) : Octets := Utf8.encode ("\x7b\"skip\": \x7b\"rows\": " ++ rows ++ "\x7d\x7d")

theorem readObject_rowsText (key : String) {text : String} {rows : Int}
    (h : isRowsDoc rows (Json.readAll (rowsText text)) = true) :
    readObject ⟨key, rowsText text⟩ = .ok (rowsDoc rows) :=
  readObject_eq_ok_iff.2 ⟨_, eq_of_isRowsDoc h, sortFields_rowsDoc rows, rfl⟩

theorem readObject_rowsText_one (key : String) : readObject ⟨key, rowsText "1"⟩ = .ok (rowsDoc 1) :=
  readObject_rowsText key (by decide +kernel)

theorem readObject_rowsText_two (key : String) : readObject ⟨key, rowsText "2"⟩ = .ok (rowsDoc 2) :=
  readObject_rowsText key (by decide +kernel)

/-- Two files of a name: at the root, and at the table prefix. -/
def rowsStore (name : String) : Store :=
  (Store.empty.write (Key.join "_config" name) (rowsText "1") (.ofNanos 0)).write (Key.join "d/t/_config" name)
    (rowsText "2") (.ofNanos 0)

theorem IsAbove.ne_empty {key folder : String} (h : IsAbove key folder) : folder ≠ "" := by
  rintro rfl
  rcases h with h | ⟨dir, rest, -, -, h⟩
  · exact absurd h (by decide)
  · have hlength := congrArg String.length h
    have : "".length < "/_config".length := by decide
    rw [String.length_append] at hlength
    omega

theorem join_left_inj {dir dir' name : String} (hdir : dir ≠ "") (hdir' : dir' ≠ "") :
    Key.join dir name = Key.join dir' name ↔ dir = dir' := by
  rw [Key.join_of_ne hdir, Key.join_of_ne hdir']
  simp [← String.toList_inj]

theorem configFile?_rowsStore (name : String) {folder : String} (hfolder : folder ≠ "") :
    (rowsStore name).configFile? name folder =
      if folder = "d/t/_config" then some ⟨Key.join folder name, rowsText "2"⟩
      else if folder = "_config" then some ⟨Key.join folder name, rowsText "1"⟩ else none := by
  have hne : ∀ {dir : String}, dir ≠ "" → folder ≠ dir → Key.join folder name ≠ Key.join dir name :=
    fun hdir h e => h ((join_left_inj hfolder hdir).1 e)
  unfold Store.configFile? rowsStore
  split
  · rename_i h
    rw [h, Store.get?_write_self, Option.map_some]
  · rename_i h
    rw [Store.get?_write_of_ne _ _ _ (hne (by decide) h)]
    split
    · rename_i h'
      rw [h', Store.get?_write_self, Option.map_some]
    · rename_i h'
      rw [Store.get?_write_of_ne _ _ _ (hne (by decide) h')]
      rfl

theorem readable_rowsStore (key name : String) : (rowsStore name).Readable key name := by
  intro folder hfolder file hfile
  rw [configFile?_rowsStore name hfolder.ne_empty] at hfile
  split at hfile
  · cases hfile
    exact ⟨_, readObject_rowsText_two _⟩
  · split at hfile
    · cases hfile
      exact ⟨_, readObject_rowsText_one _⟩
    · cases hfile

theorem configDoc?_rowsStore (name : String) {folder : String} (hfolder : folder ≠ "") :
    (rowsStore name).configDoc? name folder =
      if folder = "d/t/_config" then some (rowsDoc 2) else if folder = "_config" then some (rowsDoc 1) else none := by
  rw [Store.configDoc?, configFile?_rowsStore name hfolder]
  split
  · rw [Option.bind_some, readObject_rowsText_two]
    rfl
  · split
    · rw [Option.bind_some, readObject_rowsText_one]
      rfl
    · rfl

/-- The file at the table prefix is nearer than the one at the root. -/
theorem ChildWins.at?_rows {name : String} {base config : Json}
    (h : ChildWins (rowsStore name) "d/t/a/_SUCCESS" name base config) :
    config.at? ["skip", "rows"] = some (.whole 2) := by
  have habove : IsAbove "d/t/a/_SUCCESS" "d/t/_config" := .inr ⟨"d/t", "a/_SUCCESS", by decide, by decide, by decide⟩
  have hdoc := configDoc?_rowsStore name habove.ne_empty
  rw [if_pos rfl] at hdoc
  refine ((h.nearest ["skip", "rows"] _ _ habove hdoc (.inl rfl) ?_).1 _ rfl).2 rfl
  intro nearer other hnearer hlonger hother
  rw [configDoc?_rowsStore name hnearer.ne_empty] at hother
  split at hother
  · rename_i e
    rw [e] at hlonger
    exact absurd hlonger (Nat.lt_irrefl _)
  · split at hother
    · rename_i e
      rw [e] at hlonger
      exact absurd hlonger (by decide)
    · cases hother

theorem inOrder_rowsDoc (rows : Int) : (rowsDoc rows).InOrder := by
  rw [← sortFields_rowsDoc]
  exact Json.inOrder_sortFields _

theorem child_wins_rows :
    ((rowsDoc 1).merge (rowsDoc 2)).at? ["skip", "rows"] = some (.whole 2) ∧
      (∃ config, (rowsStore "load.json").gives (loadConfig "d/t/a/_SUCCESS" (rowsDoc 0)) = some config ∧
        config.at? ["skip", "rows"] = some (.whole 2)) ∧
      ∃ config, (rowsStore "external.json").gives (externalConfig "d/t/a/_SUCCESS") =
        (some config).filter namesFormat ∧ config.at? ["skip", "rows"] = some (.whole 2) := by
  obtain ⟨hmerge, hload, hexternal⟩ := child_wins
  refine ⟨?_, ?_, ?_⟩
  · exact ((hmerge _ _ (inOrder_rowsDoc 1) (inOrder_rowsDoc 2)).1 _ (List.cons_ne_nil _ _)).value _ rfl rfl
  · obtain ⟨config, hgives, hwins⟩ := hload _ "d/t/a/_SUCCESS" _ (inOrder_rowsDoc 0) (readable_rowsStore _ _)
    exact ⟨config, hgives, hwins.at?_rows⟩
  · obtain ⟨config, hgives, hwins⟩ := hexternal _ "d/t/a/_SUCCESS" (readable_rowsStore _ _)
    exact ⟨config, hgives, hwins.at?_rows⟩

end ConfigFiles
end Intake
