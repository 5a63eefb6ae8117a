import AmuleD.Hashes.Ed2k
import AmuleD.PosixPath
import AmuleD.Sharing.SharedTables

open posixpath pystr
open amuled.ed2k (ed2k_hash_file)

namespace amuled.sharing

/-- What is at a path. A file that cannot be read has a content all the same. -/
inductive Node where
  | directory
  | file (content : Bytes) (readable : Bool)
  | link (target : PyStr)
  | other

/-- A file system: what is at the paths below the root. -/
structure FileSystem where
  nodes : Dict Path Node

/-- The system takes a name without a NUL, and of the surrogates only those that stand for bytes. -/
def fsencodes (name : PyStr) : Bool :=
  name.all fun point => point ≠ 0 && !(0xD800 ≤ point && point < 0xE000 && !(0xDC80 ≤ point && point ≤ 0xDCFF))

namespace FileSystem

variable (fs : FileSystem)

/-- `os.lstat`, and `os.readlink` of a link. What cannot be looked up is no link. -/
def lookup (path : Path) : Lookup :=
  if fsencodes (path.getLastD []) then
    match fs.nodes.get path with
    | some (.link target) => .link target
    | _ => .no_link
  else .raises

/-- `Path.resolve`. More links inside of links than there are nodes are a loop. -/
def resolve (components : List PyStr) : Option Path := realpath fs.lookup fs.nodes.items.length [] components

/-- The file at a resolved path is a regular one with a content. -/
def HasContent (target : Path) : Prop :=
  ∃ content readable, fs.nodes.get target = some (.file content readable) ∧ content ≠ []

end FileSystem

inductive ShareReply where
  | error (reason : PyStr)
  | hash_failed
  | ok (saved : Nat) (hash : String) (name : PyStr) (size : Nat)
  | raised

/-- What a request comes to: the reply, the file that was hashed and the tables. -/
structure ShareAdd where
  reply : ShareReply
  hashed : Option Path
  tables : SharedTables

/-- The text of a column, which DuckDB is passed in UTF-8. -/
def column_text (text : PyStr) : Option String :=
  (utf8.encode text).map fun _ => String.ofList (text.map Char.ofNat)

section Kernel

variable (md4 : Md4)

/-- The record of a file that was hashed, in the table. -/
def register (target : Path) (content : Bytes) (tables : SharedTables) : ShareReply × SharedTables :=
  let result := ed2k_hash_file md4 content PARTSIZE partSize_pos
  match column_text (target.getLastD []), column_text (text target) with
  | some name, some path =>
    if h : result.file_hash.length = 16 then
      let record : SharedFile := ⟨result.file_hash, name, content.length, some path, 1, false, h⟩
      match save_file tables record record.path with
      | .ok tables => (.ok 1 record.hash_hex (target.getLastD []) content.length, tables)
      | .error _ => (.raised, tables)
    else (.raised, tables)
  | _, _ => (.raised, tables)

/-- A target that does not escape: it is hashed if it is a file that is not empty. -/
def share_file (fs : FileSystem) (rel : PyStr) (target : Path) (tables : SharedTables) : ShareAdd :=
  match fs.nodes.get target with
  | some (.file content readable) =>
    if content = [] then ⟨.error (lit "empty file"), none, tables⟩
    else if readable then
      ⟨(register md4 target content tables).1, some target, (register md4 target content tables).2⟩
    else ⟨.hash_failed, some target, tables⟩
  | _ => ⟨.error (lit "not a file: " ++ rel), none, tables⟩

/-- `ctl_share_add`, for the text of the request's path. -/
def ctl_share_add (fs : FileSystem) (incoming_dir path : PyStr) (tables : SharedTables) : ShareAdd :=
  let rel := strip path
  if rel = [] then ⟨.error (lit "path is empty"), none, tables⟩
  else
    match fs.resolve (split sep incoming_dir) with
    | none => ⟨.raised, none, tables⟩
    | some base =>
      match fs.resolve (join base rel) with
      | none => ⟨.raised, none, tables⟩
      | some target =>
        -- `str(target).startswith(str(base))`
        if (text base).isPrefixOf (text target) then share_file md4 fs rel target tables
        else ⟨.error (lit "path escapes incoming"), none, tables⟩

/-- A request hashes or registers a file only if that is inside of the incoming directory. -/
def Contained (fs : FileSystem) (incoming_dir path : PyStr) (tables : SharedTables) : Prop :=
  let done := ctl_share_add md4 fs incoming_dir path tables
  done.hashed ≠ none ∨ done.tables ≠ tables →
    ∃ base target, fs.resolve (split sep incoming_dir) = some base ∧
      fs.resolve (join base (strip path)) = some target ∧ done.hashed = some target ∧ base <+: target

variable {md4} {fs : FileSystem} {incoming_dir path : PyStr} {tables : SharedTables}

theorem hashed_share_file_iff {rel : PyStr} {target other : Path} :
    (share_file md4 fs rel target tables).hashed = some other ↔ target = other ∧ fs.HasContent target := by
  rw [share_file]
  split
  · rename_i content readable hnode
    have hcontent : fs.HasContent target ↔ content ≠ [] := by
      constructor
      · rintro ⟨found, readable', hfound, hne⟩
        rw [hnode] at hfound
        cases hfound
        exact hne
      · exact fun hne => ⟨content, readable, hnode, hne⟩
    rw [hcontent]
    split
    · rename_i hempty
      exact iff_of_false nofun fun h => h.2 hempty
    · rename_i hne
      split
      · exact ⟨fun h => ⟨Option.some.inj h, hne⟩, fun h => congrArg some h.1⟩
      · exact ⟨fun h => ⟨Option.some.inj h, hne⟩, fun h => congrArg some h.1⟩
  · rename_i hother
    refine iff_of_false nofun ?_
    rintro ⟨-, content, readable, hnode, -⟩
    exact hother content readable hnode

theorem tables_share_file {rel : PyStr} {target : Path}
    (hchanged : (share_file md4 fs rel target tables).tables ≠ tables) :
    (share_file md4 fs rel target tables).hashed ≠ none := by
  revert hchanged
  rw [share_file]
  split
  · split
    · exact fun hchanged => absurd rfl hchanged
    · split
      · exact fun _ => Option.some_ne_none _
      · exact fun _ => Option.some_ne_none _
  · exact fun hchanged => absurd rfl hchanged

/-- What is hashed. -/
theorem hashed_eq_some_iff {target : Path} :
    (ctl_share_add md4 fs incoming_dir path tables).hashed = some target ↔
      strip path ≠ [] ∧ ∃ base, fs.resolve (split sep incoming_dir) = some base ∧
        fs.resolve (join base (strip path)) = some target ∧ text base <+: text target ∧ fs.HasContent target := by
  simp only [ctl_share_add]
  by_cases hrel : strip path = []
  · rw [if_pos hrel]
    exact iff_of_false nofun fun h => h.1 hrel
  rw [if_neg hrel, and_iff_right hrel]
  cases hbase : fs.resolve (split sep incoming_dir) with
  | none => exact iff_of_false nofun (by rintro ⟨base, h, -⟩; cases h)
  | some base =>
    simp only [Option.some.injEq, exists_eq_left']
    cases htarget : fs.resolve (join base (strip path)) with
    | none => exact iff_of_false nofun (by rintro ⟨h, -⟩; cases h)
    | some found =>
      by_cases hstarts : (text base).isPrefixOf (text found) = true
      · simp only [if_pos hstarts, hashed_share_file_iff]
        have hfront := List.isPrefixOf_iff_prefix.mp hstarts
        constructor
        · rintro ⟨rfl, hcontent⟩
          exact ⟨rfl, hfront, hcontent⟩
        · rintro ⟨hsame, -, hcontent⟩
          cases hsame
          exact ⟨rfl, hcontent⟩
      · simp only [if_neg hstarts]
        refine iff_of_false nofun ?_
        rintro ⟨hsame, hfront, -⟩
        cases hsame
        exact hstarts (List.isPrefixOf_iff_prefix.mpr hfront)

/-- Only what is hashed is registered. -/
theorem hashed_of_registered (hchanged : (ctl_share_add md4 fs incoming_dir path tables).tables ≠ tables) :
    (ctl_share_add md4 fs incoming_dir path tables).hashed ≠ none := by
  revert hchanged
  simp only [ctl_share_add]
  split
  · exact fun hchanged => absurd rfl hchanged
  split
  · exact fun hchanged => absurd rfl hchanged
  split
  · exact fun hchanged => absurd rfl hchanged
  split
  · exact tables_share_file
  · exact fun hchanged => absurd rfl hchanged

theorem resolve_names {components : List PyStr} {resolved : Path} (hcomponents : ∀ name ∈ components, sep ∉ name)
    (hresolved : fs.resolve components = some resolved) : ∀ name ∈ resolved, IsName name :=
  realpath_names fs.lookup (fun _ hname => absurd hname List.not_mem_nil) hcomponents hresolved

theorem sep_notMem_join {base : Path} {rel : PyStr} (hbase : ∀ name ∈ base, IsName name) :
    ∀ name ∈ join base rel, sep ∉ name := by
  intro name hname
  rw [join] at hname
  split at hname
  · exact sep_notMem_split rel name hname
  · rcases List.mem_append.mp hname with hin | hrel
    · exact (hbase name hin).2
    · exact sep_notMem_split rel name hrel

/-- A request is contained exactly unless it names a file with a content that is reached over a name which goes on with
the name of the incoming directory. -/
theorem contained_iff (md4 : Md4) (fs : FileSystem) (incoming_dir path : PyStr) (tables : SharedTables) :
    Contained md4 fs incoming_dir path tables ↔ ∀ base target, strip path ≠ [] →
      fs.resolve (split sep incoming_dir) = some base → fs.resolve (join base (strip path)) = some target →
        ExtendsName base target → ¬ fs.HasContent target := by
  have hfront : ∀ {base target}, fs.resolve (split sep incoming_dir) = some base →
      fs.resolve (join base (strip path)) = some target →
        (text base <+: text target ↔ base <+: target ∨ ExtendsName base target) := by
    intro base target hbase htarget
    have hnames := resolve_names (sep_notMem_split incoming_dir) hbase
    exact text_prefix_iff hnames (resolve_names (sep_notMem_join hnames) htarget)
  constructor
  · intro hcontained base target hrel hbase htarget hextends hcontent
    have hhashed : (ctl_share_add md4 fs incoming_dir path tables).hashed = some target :=
      hashed_eq_some_iff.mpr ⟨hrel, base, hbase, htarget, (hfront hbase htarget).mpr (.inr hextends), hcontent⟩
    obtain ⟨base', target', hbase', htarget', -, hinside⟩ :=
      hcontained (.inl (by rw [hhashed]; exact Option.some_ne_none target))
    cases hbase.symm.trans hbase'
    cases htarget.symm.trans htarget'
    exact not_extendsName_of_prefix hinside hextends
  · intro hsafe hdone
    have hhashed := hdone.elim id hashed_of_registered
    obtain ⟨target, htarget⟩ := Option.ne_none_iff_exists'.mp hhashed
    obtain ⟨hrel, base, hbase, hresolved, htext, hcontent⟩ := hashed_eq_some_iff.mp htarget
    refine ⟨base, target, hbase, hresolved, htarget, ?_⟩
    refine ((hfront hbase hresolved).mp htext).resolve_right ?_
    exact fun hextends => hsafe base target hrel hbase hresolved hextends hcontent

end Kernel

section Samples

/-- An incoming directory with a file in the directory beside it. -/
def sampleFileSystem : FileSystem where
  nodes := (((Dict.empty.set [lit "srv"] .directory).set [lit "srv", lit "incoming"] .directory).set
    [lit "srv", lit "incoming2"] .directory).set [lit "srv", lit "incoming2", lit "secret"] (.file [7] true)

/-- The file beside the incoming directory is hashed. -/
theorem sampleFileSystem_escapes :
    ¬ Contained (Md4.buffered (zeroHash 16)) sampleFileSystem (lit "/srv/incoming") (lit "../incoming2/secret")
      ⟨.empty, []⟩ := by
  have hbase : sampleFileSystem.resolve (split sep (lit "/srv/incoming")) = some [lit "srv", lit "incoming"] := by
    decide
  have htarget : sampleFileSystem.resolve (join [lit "srv", lit "incoming"] (strip (lit "../incoming2/secret"))) =
    some [lit "srv", lit "incoming2", lit "secret"] := by decide
  have hcontent : sampleFileSystem.HasContent [lit "srv", lit "incoming2", lit "secret"] :=
    ⟨[7], true, rfl, List.cons_ne_nil _ _⟩
  have hhashed : (ctl_share_add (Md4.buffered (zeroHash 16)) sampleFileSystem (lit "/srv/incoming")
      (lit "../incoming2/secret") ⟨.empty, []⟩).hashed = some [lit "srv", lit "incoming2", lit "secret"] :=
    hashed_eq_some_iff.mpr ⟨by decide, _, hbase, htarget, by decide, hcontent⟩
  intro hcontained
  obtain ⟨base, target, hbase', -, hhashed', hinside⟩ :=
    hcontained (.inl (by rw [hhashed]; exact Option.some_ne_none _))
  cases hbase.symm.trans hbase'
  cases hhashed.symm.trans hhashed'
  exact absurd hinside (by decide)

end Samples

end amuled.sharing
