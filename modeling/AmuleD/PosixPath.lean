import AmuleD.PyStr

open pystr

namespace posixpath

/-- The separator `/`. -/
def sep : Nat := 0x2F

def curdir : PyStr := [0x2E]

def pardir : PyStr := [0x2E, 0x2E]

/-- An absolute path as the names from the root on. -/
abbrev Path : Type := List PyStr

/-- A name that a path can have. -/
def IsName (name : PyStr) : Prop := name ≠ [] ∧ sep ∉ name

/-- The names, each behind a separator. -/
def join_names (path : Path) : PyStr := path.flatMap fun name => sep :: name

/-- The text of a path. -/
def text (path : Path) : PyStr := if path = [] then [sep] else join_names path

def isabs (rel : PyStr) : Bool := rel.head? = some sep

/-- The components of `base / rel`. -/
def join (base : Path) (rel : PyStr) : List PyStr := if isabs rel then split sep rel else base ++ split sep rel

/-- What `lstat` and `readlink` tell of a path. -/
inductive Lookup where
  | raises
  | no_link
  | link (target : PyStr)

section Resolution

variable (lookup : Path → Lookup)

/-- One component: the empty one and `.` are dropped, `..` takes the last name away, a link is followed. -/
def walk_name (follow : Path → PyStr → Option Path) (path : Path) (name : PyStr) : Option Path :=
  if name = [] ∨ name = curdir then some path
  else if name = pardir then some path.dropLast
  else
    match lookup (path ++ [name]) with
    | .raises => none
    | .no_link => some (path ++ [name])
    | .link target => follow path target

/-- `realpath`, which follows as many links inside of links as it is given; more are a loop. -/
def realpath : Nat → Path → List PyStr → Option Path
  | 0, path, rest => rest.foldlM (walk_name lookup fun _ _ => none) path
  | links + 1, path, rest =>
    rest.foldlM (walk_name lookup fun path target =>
      realpath links (if isabs target then [] else path) (split sep target)) path

/-- Where every name that is walked is one, the names of the resolved path are. -/
theorem walk_name_names {follow : Path → PyStr → Option Path} {path resolved : Path} {name : PyStr}
    (hfollow : ∀ path target resolved, (∀ name ∈ path, IsName name) → follow path target = some resolved →
      ∀ name ∈ resolved, IsName name)
    (hpath : ∀ name ∈ path, IsName name) (hname : sep ∉ name)
    (hresolved : walk_name lookup follow path name = some resolved) : ∀ name ∈ resolved, IsName name := by
  rw [walk_name] at hresolved
  split at hresolved
  · cases hresolved
    exact hpath
  rename_i hkept
  split at hresolved
  · cases hresolved
    exact fun other hother => hpath other (List.dropLast_subset path hother)
  split at hresolved
  · cases hresolved
  · cases hresolved
    intro other hother
    rcases List.mem_append.mp hother with hbefore | hlast
    · exact hpath other hbefore
    · rw [List.mem_singleton.mp hlast]
      exact ⟨fun hempty => hkept (.inl hempty), hname⟩
  · exact hfollow _ _ _ hpath hresolved

theorem foldlM_walk_names {follow : Path → PyStr → Option Path} {path resolved : Path} {rest : List PyStr}
    (hfollow : ∀ path target resolved, (∀ name ∈ path, IsName name) → follow path target = some resolved →
      ∀ name ∈ resolved, IsName name)
    (hpath : ∀ name ∈ path, IsName name) (hrest : ∀ name ∈ rest, sep ∉ name)
    (hresolved : rest.foldlM (walk_name lookup follow) path = some resolved) : ∀ name ∈ resolved, IsName name := by
  induction rest generalizing path with
  | nil =>
    cases hresolved
    exact hpath
  | cons name rest ih =>
    rw [List.foldlM_cons] at hresolved
    obtain ⟨next, hnext, hlater⟩ := Option.bind_eq_some_iff.mp hresolved
    have hnames := walk_name_names lookup hfollow hpath (hrest name List.mem_cons_self) hnext
    exact ih hnames (fun other hother => hrest other (List.mem_cons_of_mem _ hother)) hlater

theorem sep_notMem_split (rel : PyStr) : ∀ name ∈ split sep rel, sep ∉ name := by
  induction rel with
  | nil =>
    intro name hname
    rw [split, List.splitOn_nil] at hname
    rw [List.mem_singleton.mp hname]
    exact List.not_mem_nil
  | cons c rel ih =>
    rw [split] at ih ⊢
    rw [List.splitOn_cons_eq_if_modifyHead]
    split
    · intro name hname
      rcases List.mem_cons.mp hname with rfl | hrest
      · exact List.not_mem_nil
      · exact ih name hrest
    · rename_i hother
      obtain ⟨first, others, hsplit⟩ := List.exists_cons_of_ne_nil (List.splitOn_ne_nil sep rel)
      rw [hsplit] at ih ⊢
      intro name hname
      rw [List.modifyHead_cons] at hname
      rcases List.mem_cons.mp hname with rfl | hrest
      · intro hmem
        rcases List.mem_cons.mp hmem with hsame | hin
        · exact hother (beq_iff_eq.mpr hsame.symm)
        · exact ih first List.mem_cons_self hin
      · exact ih name (List.mem_cons_of_mem _ hrest)

/-- A resolved path has names that a path can have. -/
theorem realpath_names {links : Nat} {path resolved : Path} {rest : List PyStr} (hpath : ∀ name ∈ path, IsName name)
    (hrest : ∀ name ∈ rest, sep ∉ name) (hresolved : realpath lookup links path rest = some resolved) :
    ∀ name ∈ resolved, IsName name := by
  induction links generalizing path rest resolved with
  | zero =>
    refine foldlM_walk_names lookup ?_ hpath hrest hresolved
    intro path target resolved _ hnone
    cases hnone
  | succ links ih =>
    refine foldlM_walk_names lookup ?_ hpath hrest hresolved
    intro path target resolved hnames hfollowed
    refine ih ?_ (sep_notMem_split target) hfollowed
    split
    · exact fun name hname => absurd hname List.not_mem_nil
    · exact hnames

end Resolution

section Prefixes

/-- The last name of a path goes on in another one. -/
def ExtendsName (base target : Path) : Prop :=
  ∃ front last more rest, base = front ++ [last] ∧ target = front ++ (last ++ more) :: rest ∧ more ≠ []

theorem join_names_shape (path : Path) : join_names path = [] ∨ ∃ more, join_names path = sep :: more := by
  cases path with
  | nil => exact .inl rfl
  | cons name path => exact .inr ⟨name ++ join_names path, rfl⟩

/-- Names without separators, before texts that start with one. -/
theorem append_prefix_append_iff {a b x y : PyStr} (ha : sep ∉ a) (hb : sep ∉ b)
    (hx : x = [] ∨ ∃ more, x = sep :: more) (hy : y = [] ∨ ∃ more, y = sep :: more) :
    a ++ x <+: b ++ y ↔ x = [] ∧ a <+: b ∨ a = b ∧ x <+: y := by
  induction a generalizing b with
  | nil =>
    rcases hx with rfl | ⟨more, rfl⟩
    · exact iff_of_true List.nil_prefix (.inl ⟨rfl, List.nil_prefix⟩)
    · cases b with
      | nil => exact ⟨fun h => .inr ⟨rfl, h⟩, fun h => (h.resolve_left nofun).2⟩
      | cons d b =>
        refine iff_of_false ?_ (by rintro (⟨h, -⟩ | ⟨h, -⟩) <;> cases h)
        intro h
        exact hb (List.mem_cons.mpr (.inl (List.cons_prefix_cons.mp h).1))
  | cons c a ih =>
    cases b with
    | nil =>
      refine iff_of_false ?_ ?_
      swap
      · rintro (⟨-, h⟩ | ⟨h, -⟩)
        · cases List.prefix_nil.mp h
        · cases h
      intro h
      rcases hy with rfl | ⟨more, rfl⟩
      · cases List.prefix_nil.mp h
      · exact ha (List.mem_cons.mpr (.inl (List.cons_prefix_cons.mp h).1.symm))
    | cons d b =>
      rw [List.cons_append, List.cons_append, List.cons_prefix_cons, List.cons_prefix_cons, List.cons.injEq,
        ih (fun h => ha (List.mem_cons_of_mem _ h)) (fun h => hb (List.mem_cons_of_mem _ h))]
      tauto

theorem extendsName_cons_iff {first other : PyStr} {base target : Path} :
    ExtendsName (first :: base) (other :: target) ↔
      base = [] ∧ (∃ more, other = first ++ more ∧ more ≠ []) ∨ first = other ∧ ExtendsName base target := by
  constructor
  · rintro ⟨front, last, more, rest, hbase, htarget, hmore⟩
    cases front with
    | nil =>
      cases hbase
      cases htarget
      exact .inl ⟨rfl, more, rfl, hmore⟩
    | cons name front =>
      rw [List.cons_append] at hbase htarget
      injection hbase with hfirst hbase
      injection htarget with hother htarget
      exact .inr ⟨hfirst.trans hother.symm, front, last, more, rest, hbase, htarget, hmore⟩
  · rintro (⟨rfl, more, rfl, hmore⟩ | ⟨rfl, front, last, more, rest, rfl, rfl, hmore⟩)
    · exact ⟨[], first, more, target, rfl, rfl, hmore⟩
    · exact ⟨first :: front, last, more, rest, rfl, rfl, hmore⟩

theorem join_names_eq_nil_iff {path : Path} : join_names path = [] ↔ path = [] := by
  cases path with
  | nil => exact iff_of_true rfl rfl
  | cons name path => exact iff_of_false (List.cons_ne_nil _ _) (List.cons_ne_nil _ _)

theorem join_names_prefix_iff {base target : Path} (hbase : ∀ name ∈ base, sep ∉ name)
    (htarget : ∀ name ∈ target, sep ∉ name) :
    join_names base <+: join_names target ↔ base <+: target ∨ ExtendsName base target := by
  induction base generalizing target with
  | nil => exact iff_of_true List.nil_prefix (.inl List.nil_prefix)
  | cons first base ih =>
    cases target with
    | nil =>
      refine iff_of_false (fun h => by cases List.prefix_nil.mp h) ?_
      rintro (h | ⟨front, last, more, rest, -, htarget, -⟩)
      · cases List.prefix_nil.mp h
      · exact List.append_ne_nil_of_right_ne_nil front (List.cons_ne_nil _ _) htarget.symm
    | cons other target =>
      have hrest := ih (fun name hname => hbase name (List.mem_cons_of_mem _ hname))
        fun name hname => htarget name (List.mem_cons_of_mem _ hname)
      change sep :: (first ++ join_names base) <+: sep :: (other ++ join_names target) ↔ _
      rw [List.cons_prefix_cons, append_prefix_append_iff (hbase first List.mem_cons_self)
        (htarget other List.mem_cons_self) (join_names_shape base) (join_names_shape target), hrest,
        join_names_eq_nil_iff, List.cons_prefix_cons, extendsName_cons_iff]
      constructor
      · rintro ⟨-, ⟨rfl, more, rfl⟩ | ⟨rfl, hinside | hextends⟩⟩
        · by_cases hmore : more = []
          · subst hmore
            rw [List.append_nil]
            exact .inl ⟨rfl, List.nil_prefix⟩
          · exact .inr (.inl ⟨rfl, more, rfl, hmore⟩)
        · exact .inl ⟨rfl, hinside⟩
        · exact .inr (.inr ⟨rfl, hextends⟩)
      · rintro (⟨rfl, hinside⟩ | ⟨rfl, more, rfl, -⟩ | ⟨rfl, hextends⟩)
        · exact ⟨rfl, .inr ⟨rfl, .inl hinside⟩⟩
        · exact ⟨rfl, .inl ⟨rfl, List.prefix_append first more⟩⟩
        · exact ⟨rfl, .inr ⟨rfl, .inr hextends⟩⟩

/-- One path's text starts with another's exactly for a path inside of it, and for one beside it that goes on with its
last name. -/
theorem text_prefix_iff {base target : Path} (hbase : ∀ name ∈ base, IsName name)
    (htarget : ∀ name ∈ target, IsName name) :
    text base <+: text target ↔ base <+: target ∨ ExtendsName base target := by
  rw [← join_names_prefix_iff (fun name hname => (hbase name hname).2) fun name hname => (htarget name hname).2,
    text, text]
  cases base with
  | nil =>
    refine iff_of_true ?_ List.nil_prefix
    rw [if_pos rfl]
    split
    · exact List.prefix_rfl
    · rename_i hne
      rcases join_names_shape target with hempty | ⟨more, hmore⟩
      · exact absurd (join_names_eq_nil_iff.mp hempty) hne
      · rw [hmore]
        exact List.prefix_append [sep] more
  | cons first base =>
    rw [if_neg (List.cons_ne_nil _ _)]
    split
    · rename_i hroot
      subst hroot
      refine iff_of_false ?_ fun h => by cases List.prefix_nil.mp h
      intro h
      -- the first name is not empty
      change sep :: (first ++ join_names base) <+: [sep] at h
      have hempty := List.prefix_nil.mp (List.cons_prefix_cons.mp h).2
      exact (hbase first List.mem_cons_self).1 (List.append_eq_nil_iff.mp hempty).1
    · rfl

/-- No path inside of another goes on with that one's last name. -/
theorem not_extendsName_of_prefix {base target : Path} (hinside : base <+: target) : ¬ ExtendsName base target := by
  rintro ⟨front, last, more, rest, rfl, rfl, hmore⟩
  rw [List.prefix_append_right_inj, List.cons_prefix_cons] at hinside
  exact hmore (List.self_eq_append_right.mp hinside.1)

end Prefixes

end posixpath
