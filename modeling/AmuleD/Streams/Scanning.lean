import AmuleD.Streams.Cursor

namespace cursor

variable {α β γ δ ε : Type}

/-- Between two positions of a buffer stands `front`. -/
structure Took (cursor : Cursor α) (front : List α) (after : Cursor α) : Prop where
  data : after.data = cursor.data
  pos : after.pos = cursor.pos + front.length
  front : cursor.data.drop cursor.pos = front ++ cursor.data.drop after.pos

namespace Took

variable {cursor middle after : Cursor α} {front back : List α}

theorem refl (cursor : Cursor α) : Took cursor [] cursor := ⟨rfl, rfl, rfl⟩

theorem trans (hfront : Took cursor front middle) (hback : Took middle back after) :
    Took cursor (front ++ back) after := by
  refine ⟨hback.data.trans hfront.data, ?_, ?_⟩
  · rw [hback.pos, hfront.pos, List.length_append, Nat.add_assoc]
  · have hrest := hback.front
    rw [hfront.data] at hrest
    rw [hfront.front, hrest, List.append_assoc]

theorem extract (h : Took cursor front after) : cursor.data.extract cursor.pos after.pos = front := by
  rw [List.extract_eq_take_drop, h.front, h.pos, Nat.add_sub_cancel_left, List.take_left]

end Took

theorem bind_eq_ok_iff {read : Reading α ε β} {next : β → Reading α ε γ} {cursor after : Cursor α} {result : γ} :
    (read >>= next) cursor = .ok (result, after) ↔
      ∃ value middle, read cursor = .ok (value, middle) ∧ next value middle = .ok (result, after) := by
  cases hread : read cursor with
  | error e =>
    rw [bind_error hread]
    simp
  | ok result =>
    obtain ⟨value, middle⟩ := result
    rw [bind_ok hread]
    simp

theorem map_eq_ok_iff {read : Reading α ε β} {f : β → γ} {cursor after : Cursor α} {result : γ} :
    (f <$> read) cursor = .ok (result, after) ↔ ∃ value, read cursor = .ok (value, after) ∧ f value = result := by
  cases hread : read cursor with
  | error e => simp [Functor.map, StateT.map, hread, bind, Except.bind]
  | ok result =>
    obtain ⟨value, middle⟩ := result
    simp only [Functor.map, StateT.map, hread, bind, Except.bind, Except.pure, pure, Except.ok.injEq, Prod.mk.injEq]
    constructor
    · rintro ⟨rfl, rfl⟩
      exact ⟨value, ⟨rfl, rfl⟩, rfl⟩
    · rintro ⟨_, ⟨rfl, rfl⟩, rfl⟩
      exact ⟨rfl, rfl⟩

theorem map_error {read : Reading α ε β} {f : β → γ} {cursor : Cursor α} {e : ε} (hread : read cursor = .error e) :
    (f <$> read) cursor = .error e := by
  simp only [Functor.map, StateT.map, hread, bind, Except.bind]

theorem map_ok {read : Reading α ε β} {f : β → γ} {cursor after : Cursor α} {value : β}
    (hread : read cursor = .ok (value, after)) : (f <$> read) cursor = .ok (f value, after) :=
  map_eq_ok_iff.mpr ⟨value, hread, rfl⟩

theorem took_of_takeN {short : Nat → Cursor α → ε} {n : Nat} {cursor after : Cursor α} {front : List α}
    (htake : takeN short n cursor = .ok (front, after)) : Took cursor front after ∧ front.length = n := by
  rw [takeN] at htake
  split at htake
  · cases htake
  · rename_i hfits
    rw [Except.ok.injEq, Prod.mk.injEq] at htake
    obtain ⟨rfl, rfl⟩ := htake
    have hlength : (cursor.data.extract cursor.pos (cursor.pos + n)).length = n := by
      rw [List.extract_eq_take_drop, List.length_take, List.length_drop]
      omega
    refine ⟨⟨rfl, by rw [hlength], ?_⟩, hlength⟩
    rw [List.extract_eq_take_drop, Nat.add_sub_cancel_left, ← List.drop_drop, List.take_append_drop]

/-- What `read` takes off the buffer. -/
def piece (read : Reading α ε β) : Reading α ε (List α) := fun cursor =>
  match read cursor with
  | .ok (_, after) => .ok (cursor.data.extract cursor.pos after.pos, after)
  | .error e => .error e

/-- The piece of a value that is written as it was read. -/
theorem piece_eq_map {read : Reading α ε β} {written : β → List α}
    (htook : ∀ cursor value after, read cursor = .ok (value, after) → Took cursor (written value) after) :
    piece read = written <$> read := by
  funext cursor
  rw [piece]
  cases hread : read cursor with
  | error e => rw [map_error hread]
  | ok result =>
    obtain ⟨value, after⟩ := result
    rw [map_ok hread]
    dsimp only
    rw [(htook cursor value after hread).extract]

theorem repeatN_map (f : β → γ) (read : Reading α ε β) (count : Nat) :
    repeatN (f <$> read) count = List.map f <$> repeatN read count := by
  induction count with
  | zero => rfl
  | succ count ih => simp only [repeatN, ih, bind_map_left, map_bind, map_pure, List.map_cons]

/-- Pieces that are read one after the other are taken together. -/
theorem took_of_repeatN {read : Reading α ε β} {written : β → List α}
    (htook : ∀ cursor value after, read cursor = .ok (value, after) → Took cursor (written value) after) {count : Nat}
    {cursor after : Cursor α} {values : List β} (hread : repeatN read count cursor = .ok (values, after)) :
    Took cursor (values.map written).flatten after := by
  induction count generalizing cursor values with
  | zero =>
    cases hread
    exact Took.refl _
  | succ count ih =>
    obtain ⟨value, middle, hfirst, hread⟩ := bind_eq_ok_iff.mp hread
    obtain ⟨rest, last, hrest, hread⟩ := bind_eq_ok_iff.mp hread
    cases hread
    exact (htook _ _ _ hfirst).trans (ih hrest)

theorem forall_of_repeatN {read : Reading α ε β} {p : β → Prop}
    (hp : ∀ cursor value after, read cursor = .ok (value, after) → p value) {count : Nat}
    {cursor after : Cursor α} {values : List β} (hread : repeatN read count cursor = .ok (values, after)) :
    ∀ value ∈ values, p value := by
  induction count generalizing cursor values with
  | zero =>
    cases hread
    exact fun value hvalue => absurd hvalue List.not_mem_nil
  | succ count ih =>
    obtain ⟨value, middle, hfirst, hread⟩ := bind_eq_ok_iff.mp hread
    obtain ⟨rest, last, hrest, hread⟩ := bind_eq_ok_iff.mp hread
    cases hread
    exact List.forall_mem_cons.mpr ⟨hp _ _ _ hfirst, ih hrest⟩

/-- Pieces that end by themselves are the same where they are the same together. -/
theorem flatten_map_eq_iff {f g : δ → List α} {items : List δ}
    (hcut : ∀ item ∈ items, ∀ rest other, f item ++ rest = g item ++ other → f item = g item) :
    (items.map f).flatten = (items.map g).flatten ↔ ∀ item ∈ items, f item = g item := by
  induction items with
  | nil => simp
  | cons item rest ih =>
    rw [List.forall_mem_cons] at hcut
    rw [List.map_cons, List.map_cons, List.flatten_cons, List.flatten_cons, List.forall_mem_cons, ← ih hcut.2]
    constructor
    · intro hsame
      have hfirst := hcut.1 _ _ hsame
      rw [hfirst] at hsame
      exact ⟨hfirst, List.append_cancel_left hsame⟩
    · rintro ⟨hfirst, hrest⟩
      rw [hfirst, hrest]

section Build

/-- Numbered entries are read and made into something one after the other. -/
def buildN (read : Nat → Reading α ε β) (build : β → Except ε γ) (i : Nat) : Nat → Reading α ε (List γ)
  | 0 => pure []
  | count + 1 => do
    let value ← read i
    let made ← StateT.lift (build value)
    let rest ← buildN read build (i + 1) count
    pure (made :: rest)

/-- The entries that can be read, and the failure of the first that cannot. -/
def scan (read : Nat → Reading α ε β) (i : Nat) : Nat → Cursor α → List β × Option ε
  | 0, _ => ([], none)
  | count + 1, cursor =>
    match read i cursor with
    | .error e => ([], some e)
    | .ok (value, after) => (value :: (scan read (i + 1) count after).1, (scan read (i + 1) count after).2)

variable {read : Nat → Reading α ε β} {build : β → Except ε γ}

theorem buildN_map (f : δ → β) (read : Nat → Reading α ε δ) (build : β → Except ε γ) (i count : Nat) :
    buildN (fun i => f <$> read i) build i count = buildN read (fun value => build (f value)) i count := by
  induction count generalizing i with
  | zero => rfl
  | succ count ih => simp only [buildN, ih, bind_map_left]

theorem scan_map (f : β → γ) (i count : Nat) (cursor : Cursor α) :
    scan (fun i => f <$> read i) i count cursor = ((scan read i count cursor).1.map f, (scan read i count cursor).2) := by
  induction count generalizing i cursor with
  | zero => rfl
  | succ count ih =>
    rw [scan, scan]
    cases hread : read i cursor with
    | error e => rw [map_error hread, List.map_nil]
    | ok result =>
      obtain ⟨value, after⟩ := result
      rw [map_ok hread]
      dsimp only
      rw [ih, List.map_cons]

theorem fst_map_cons (rest : Reading α ε (List γ)) (made : γ) (cursor : Cursor α) :
    Prod.fst <$> (rest >>= fun values => pure (made :: values)) cursor = (made :: ·) <$> (Prod.fst <$> rest cursor) := by
  cases hrest : rest cursor with
  | error e =>
    rw [bind_error hrest]
    rfl
  | ok result =>
    rw [bind_ok hrest]
    rfl

/-- What can be read is built in order, before a failure to read shows. -/
theorem buildN_eq (i count : Nat) (cursor : Cursor α) :
    Prod.fst <$> buildN read build i count cursor =
      (scan read i count cursor).1.mapM build >>= fun made =>
        match (scan read i count cursor).2 with
        | none => .ok made
        | some e => .error e := by
  induction count generalizing i cursor with
  | zero => rfl
  | succ count ih =>
    rw [buildN, scan]
    cases hread : read i cursor with
    | error e =>
      rw [bind_error hread]
      rfl
    | ok result =>
      obtain ⟨value, after⟩ := result
      rw [bind_ok hread]
      dsimp only
      rw [List.mapM_cons]
      cases hbuild : build value with
      | error e => rfl
      | ok made =>
        have hmade : (StateT.lift (Except.ok made) : Reading α ε γ) after = .ok (made, after) := rfl
        rw [bind_ok hmade, fst_map_cons, ih (i + 1) after]
        cases (scan read (i + 1) count after).1.mapM build with
        | error e => rfl
        | ok values =>
          cases (scan read (i + 1) count after).2 with
          | none => rfl
          | some e => rfl

theorem buildN_eq_ok_iff {i count : Nat} {cursor : Cursor α} {made : List γ} :
    Prod.fst <$> buildN read build i count cursor = .ok made ↔
      (scan read i count cursor).2 = none ∧ (scan read i count cursor).1.mapM build = .ok made := by
  rw [buildN_eq]
  cases (scan read i count cursor).1.mapM build with
  | error e => simp [bind, Except.bind]
  | ok values =>
    cases (scan read i count cursor).2 with
    | none => simp [bind, Except.bind]
    | some e => simp [bind, Except.bind]

/-- All entries are there where none fails to be read. -/
theorem length_scan {i count : Nat} {cursor : Cursor α} (hall : (scan read i count cursor).2 = none) :
    (scan read i count cursor).1.length = count := by
  induction count generalizing i cursor with
  | zero => rfl
  | succ count ih =>
    rw [scan] at hall ⊢
    cases hread : read i cursor with
    | error e =>
      rw [hread] at hall
      cases hall
    | ok result =>
      rw [hread] at hall
      exact congrArg Nat.succ (ih hall)

theorem scan_error {allowed : ε → Prop} (hread : ∀ i, Raises (read i) allowed) {i count : Nat} {cursor : Cursor α} {e : ε}
    (herror : (scan read i count cursor).2 = some e) : allowed e := by
  induction count generalizing i cursor with
  | zero => cases herror
  | succ count ih =>
    rw [scan] at herror
    cases hfirst : read i cursor with
    | error other =>
      rw [hfirst] at herror
      cases herror
      exact hread i cursor _ hfirst
    | ok result =>
      rw [hfirst] at herror
      exact ih herror

theorem forall_of_scan {p : β → Prop} (hp : ∀ i cursor value after, read i cursor = .ok (value, after) → p value)
    (i count : Nat) (cursor : Cursor α) : ∀ value ∈ (scan read i count cursor).1, p value := by
  induction count generalizing i cursor with
  | zero => exact fun value hvalue => absurd hvalue List.not_mem_nil
  | succ count ih =>
    rw [scan]
    cases hread : read i cursor with
    | error e => exact fun value hvalue => absurd hvalue List.not_mem_nil
    | ok result => exact List.forall_mem_cons.mpr ⟨hp i cursor _ _ hread, ih (i + 1) result.2⟩

/-- What can be read does not depend on how a failure is told. -/
theorem scan_congr {other : Nat → Reading α ε β}
    (hsame : ∀ i cursor result, read i cursor = .ok result ↔ other i cursor = .ok result) (i count : Nat)
    (cursor : Cursor α) : (scan read i count cursor).1 = (scan other i count cursor).1 := by
  induction count generalizing i cursor with
  | zero => rfl
  | succ count ih =>
    rw [scan, scan]
    cases hread : read i cursor with
    | ok result =>
      rw [(hsame i cursor result).mp hread]
      dsimp only
      rw [ih]
    | error e =>
      cases hother : other i cursor with
      | error _ => rfl
      | ok result =>
        rw [(hsame i cursor result).mpr hother] at hread
        cases hread

/-- The entries that are made, or the failure of the first that cannot be. -/
theorem mapM_cases (values : List β) :
    (∃ made, values.mapM build = .ok made) ∧ (∀ value ∈ values, ∃ made, build value = .ok made) ∨
      ∃ value ∈ values, ∃ e, build value = .error e ∧ values.mapM build = .error e := by
  induction values with
  | nil => exact .inl ⟨⟨[], rfl⟩, fun value hvalue => absurd hvalue List.not_mem_nil⟩
  | cons value rest ih =>
    rw [List.mapM_cons]
    cases hvalue : build value with
    | error e => exact .inr ⟨value, List.mem_cons_self, e, hvalue, rfl⟩
    | ok made =>
      rcases ih with ⟨⟨others, hothers⟩, hall⟩ | ⟨other, hmem, e, herror, hmapped⟩
      · rw [hothers]
        exact .inl ⟨⟨made :: others, rfl⟩, List.forall_mem_cons.mpr ⟨⟨made, hvalue⟩, hall⟩⟩
      · rw [hmapped]
        exact .inr ⟨other, List.mem_cons_of_mem value hmem, e, herror, rfl⟩

/-- What is seen of the things that are made, where each of them shows what it is made of. -/
theorem map_of_mapM {shown : γ → δ} {source : β → δ} {values : List β} {made : List γ}
    (hshown : ∀ value ∈ values, ∀ thing, build value = .ok thing → shown thing = source value)
    (hmapped : values.mapM build = .ok made) : made.map shown = values.map source := by
  induction values generalizing made with
  | nil =>
    cases hmapped
    rfl
  | cons value rest ih =>
    rw [List.forall_mem_cons] at hshown
    rw [List.mapM_cons] at hmapped
    cases hvalue : build value with
    | error e =>
      rw [hvalue] at hmapped
      cases hmapped
    | ok thing =>
      rw [hvalue] at hmapped
      cases hrest : rest.mapM build with
      | error e =>
        rw [hrest] at hmapped
        cases hmapped
      | ok things =>
        rw [hrest] at hmapped
        cases hmapped
        rw [List.map_cons, List.map_cons, hshown.1 thing hvalue, ih hshown.2 hrest]

/-- A loop goes through all of its values, or stops at one that it cannot take whatever its state is. -/
theorem foldlM_cases {σ : Type} {step : σ → β → Except ε σ} {taken : β → Prop} {e : ε} {values : List β}
    (hstep : ∀ value ∈ values, taken value ∧ (∀ state, ∃ next, step state value = .ok next) ∨
      ¬taken value ∧ ∀ state, step state value = .error e) (state : σ) :
    (∀ value ∈ values, taken value) ∧ (∃ last, values.foldlM step state = .ok last) ∨
      (∃ value ∈ values, ¬taken value) ∧ values.foldlM step state = .error e := by
  induction values generalizing state with
  | nil => exact .inl ⟨fun value hvalue => absurd hvalue List.not_mem_nil, state, rfl⟩
  | cons value rest ih =>
    rw [List.forall_mem_cons] at hstep
    rw [List.foldlM_cons]
    rcases hstep.1 with ⟨htaken, hnext⟩ | ⟨hrefused, herror⟩
    · obtain ⟨next, hnext⟩ := hnext state
      rw [hnext]
      rcases ih hstep.2 next with ⟨hall, hlast⟩ | ⟨⟨other, hmem, hrefused⟩, herror⟩
      · exact .inl ⟨List.forall_mem_cons.mpr ⟨htaken, hall⟩, hlast⟩
      · exact .inr ⟨⟨other, List.mem_cons_of_mem value hmem, hrefused⟩, herror⟩
    · rw [herror state]
      exact .inr ⟨⟨value, List.mem_cons_self, hrefused⟩, rfl⟩

/-- Only failures to read show, where and only where everything that is read can be made. -/
theorem buildN_returns_or_iff {allowed : ε → Prop} (hread : ∀ i, Raises (read i) allowed)
    {i count : Nat} {cursor : Cursor α}
    (hbuild : ∀ value ∈ (scan read i count cursor).1, ∀ e, build value = .error e → ¬allowed e) :
    ((∃ made, Prod.fst <$> buildN read build i count cursor = .ok made) ∨
        ∃ e, Prod.fst <$> buildN read build i count cursor = .error e ∧ allowed e) ↔
      ∀ value ∈ (scan read i count cursor).1, ∃ made, build value = .ok made := by
  rw [buildN_eq]
  rcases mapM_cases (scan read i count cursor).1 with ⟨⟨made, hmade⟩, hall⟩ | ⟨value, hmem, e, herror, hmapped⟩
  · rw [hmade]
    refine iff_of_true ?_ hall
    cases hend : (scan read i count cursor).2 with
    | none => exact .inl ⟨made, rfl⟩
    | some e => exact .inr ⟨e, rfl, scan_error hread hend⟩
  · rw [hmapped]
    apply iff_of_false
    · rintro (⟨made, hmade⟩ | ⟨other, hother, hallowed⟩)
      · cases hmade
      · cases hother
        exact hbuild value hmem e herror hallowed
    · intro hall
      obtain ⟨made, hmade⟩ := hall value hmem
      rw [herror] at hmade
      cases hmade

end Build

end cursor
