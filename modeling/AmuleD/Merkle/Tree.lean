import Mathlib.Algebra.Order.Ring.Nat
import Mathlib.Data.List.Nodup
import Mathlib.Data.List.Induction
import Mathlib.Data.Nat.Bitwise

namespace merkle

/-- A binary tree with values at its leaves. -/
inductive Tree (α : Type) where
  | leaf (value : α)
  | node (left right : Tree α)
  deriving DecidableEq, Repr

namespace Tree

variable {α β γ : Type}

def map (f : α → β) : Tree α → Tree β
  | leaf value => leaf (f value)
  | node left right => node (left.map f) (right.map f)

def leaves : Tree α → List α
  | leaf value => [value]
  | node left right => left.leaves ++ right.leaves

/-- The branching of a tree, with its leaf values forgotten. -/
def shape (tree : Tree α) : Tree Unit := tree.map (fun _ => ())

/-- The paths from the root to the leaves, left to right; `true` is a left
branch. -/
def leafPaths : Tree α → List (List Bool)
  | leaf _ => [[]]
  | node left right => left.leafPaths.map (true :: ·) ++ right.leafPaths.map (false :: ·)

/-- The Merkle root of a tree whose leaves carry digests. -/
def root (hash : List β → List β) : Tree (List β) → List β
  | leaf value => value
  | node left right => hash (left.root hash ++ right.root hash)

/-- Every string hashed while the root is computed. -/
def messages (hash : List β → List β) : Tree (List β) → List (List β)
  | leaf _ => []
  | node left right =>
    (left.root hash ++ right.root hash) :: (left.messages hash ++ right.messages hash)

/-- Hang a subtree below a chain of siblings, listed from the root down. The
flag says whether the subtree's side is the left one. -/
def attach (bottom : Tree α) : List (Bool × α) → Tree α
  | [] => bottom
  | (true, sibling) :: rest => node (bottom.attach rest) (leaf sibling)
  | (false, sibling) :: rest => node (leaf sibling) (bottom.attach rest)

/-- Put a list of values at the leaves, left to right. -/
def fill (missing : β) : Tree α → List β → Tree β
  | leaf _, values => leaf (values.headD missing)
  | node left right, values =>
    node (left.fill missing (values.take left.leaves.length))
      (right.fill missing (values.drop left.leaves.length))

@[simp] theorem leaves_map (f : α → β) (tree : Tree α) :
    (tree.map f).leaves = tree.leaves.map f := by
  induction tree with
  | leaf value => rfl
  | node left right ihl ihr => simp [map, leaves, ihl, ihr]

@[simp] theorem map_map (g : β → γ) (f : α → β) (tree : Tree α) :
    (tree.map f).map g = tree.map (g ∘ f) := by
  induction tree with
  | leaf value => rfl
  | node left right ihl ihr => simp [map, ihl, ihr]

@[simp] theorem shape_map (f : α → β) (tree : Tree α) : (tree.map f).shape = tree.shape := by
  simp [shape, Function.comp_def]

@[simp] theorem leafPaths_map (f : α → β) (tree : Tree α) :
    (tree.map f).leafPaths = tree.leafPaths := by
  induction tree with
  | leaf value => rfl
  | node left right ihl ihr => simp [map, leafPaths, ihl, ihr]

@[simp] theorem length_leafPaths (tree : Tree α) :
    tree.leafPaths.length = tree.leaves.length := by
  induction tree with
  | leaf value => rfl
  | node left right ihl ihr => simp [leafPaths, leaves, ihl, ihr]

theorem leaves_length_pos (tree : Tree α) : 0 < tree.leaves.length := by
  induction tree with
  | leaf value => simp [leaves]
  | node left right ihl ihr =>
    simp only [leaves, List.length_append]
    omega

/-- A tree of bounded depth has no more leaves than fit below it. -/
theorem length_leaves_le {depth : Nat} {tree : Tree α} (hdepth : ∀ path ∈ tree.leafPaths, path.length ≤ depth) :
    tree.leaves.length ≤ 2 ^ depth := by
  induction tree generalizing depth with
  | leaf value => exact Nat.one_le_two_pow
  | node left right ihl ihr =>
    rw [leafPaths, List.forall_mem_append, List.forall_mem_map, List.forall_mem_map] at hdepth
    obtain ⟨hleft, hright⟩ := hdepth
    cases depth with
    | zero =>
      have hpos := left.leaves_length_pos
      rw [← length_leafPaths] at hpos
      obtain ⟨path, hpath⟩ := List.exists_mem_of_length_pos hpos
      exact absurd (hleft path hpath) (Nat.not_succ_le_zero _)
    | succ depth =>
      have hleaves := ihl fun path hpath => Nat.le_of_succ_le_succ (hleft path hpath)
      have hrest := ihr fun path hpath => Nat.le_of_succ_le_succ (hright path hpath)
      rw [leaves, List.length_append, Nat.pow_succ]
      omega

@[simp] theorem shape_fill (missing : β) (tree : Tree α) (values : List β) :
    (tree.fill missing values).shape = tree.shape := by
  induction tree generalizing values with
  | leaf value => rfl
  | node left right ihl ihr =>
    simp only [shape] at ihl ihr ⊢
    simp only [fill, map, ihl, ihr]

theorem leaves_fill (missing : β) (tree : Tree α) {values : List β}
    (hlength : values.length = tree.leaves.length) : (tree.fill missing values).leaves = values := by
  induction tree generalizing values with
  | leaf value =>
    obtain ⟨first, rfl⟩ := List.length_eq_one_iff.mp hlength
    rfl
  | node left right ihl ihr =>
    simp only [leaves, List.length_append] at hlength
    simp only [fill, leaves]
    rw [ihl (by rw [List.length_take]; omega), ihr (by rw [List.length_drop]; omega),
      List.take_append_drop]

/-- Filling a tree's shape with its own leaves gives the tree back. -/
theorem fill_leaves_map (missing : β) (f : α → β) (tree : Tree α) :
    tree.fill missing (tree.map f).leaves = tree.map f := by
  induction tree with
  | leaf value => rfl
  | node left right ihl ihr =>
    have hlength : left.leaves.length = (left.map f).leaves.length := by simp
    simp only [map, leaves, fill]
    rw [hlength, List.take_left, List.drop_left, ihl, ihr]

/-- No two leaves of a tree share a path. -/
theorem nodup_leafPaths (tree : Tree α) : tree.leafPaths.Nodup := by
  induction tree with
  | leaf value => simp [leafPaths]
  | node left right ihl ihr =>
    refine List.Nodup.append (ihl.map ?_) (ihr.map ?_) ?_
    · intro first second heq
      exact (List.cons.inj heq).2
    · intro first second heq
      exact (List.cons.inj heq).2
    · intro path hleft hright
      obtain ⟨_, _, rfl⟩ := List.mem_map.mp hleft
      obtain ⟨_, _, heq⟩ := List.mem_map.mp hright
      simp at heq

section Binding

variable (hash : List β → List β) {width : Nat}

theorem length_root (hhash : ∀ message, (hash message).length = width) (tree : Tree (List β))
    (hleaves : ∀ value ∈ tree.leaves, value.length = width) : (tree.root hash).length = width := by
  cases tree with
  | leaf value => exact hleaves value (by simp [leaves])
  | node left right => exact hhash _

theorem length_root_le (hhash : ∀ message, (hash message).length = width) (tree : Tree (List β))
    (hleaves : ∀ value ∈ tree.leaves, value.length ≤ width) : (tree.root hash).length ≤ width := by
  cases tree with
  | leaf value => exact hleaves value (by simp [leaves])
  | node left right => exact Nat.le_of_eq (hhash _)

/-- A root binds the leaves of a tree of known shape. The honest leaves are
complete digests; the claimed ones may be shorter, since a short leaf would
make the string hashed above it shorter than the honest one. Only the strings
hashed for these two roots need to be free of collisions. -/
theorem binding (hhash : ∀ message, (hash message).length = width) {honest claimed : Tree (List β)}
    (hshape : honest.shape = claimed.shape)
    (hhonest : ∀ value ∈ honest.leaves, value.length = width)
    (hclaimed : ∀ value ∈ claimed.leaves, value.length ≤ width)
    (hfree : ∀ first ∈ honest.messages hash, ∀ second ∈ claimed.messages hash,
      hash first = hash second → first = second)
    (hroot : honest.root hash = claimed.root hash) : honest = claimed := by
  induction honest generalizing claimed with
  | leaf value =>
    cases claimed with
    | leaf other => exact congrArg leaf hroot
    | node left right => simp [shape, map] at hshape
  | node left right ihl ihr =>
    cases claimed with
    | leaf other => simp [shape, map] at hshape
    | node otherLeft otherRight =>
      simp only [leaves, List.mem_append] at hhonest hclaimed
      simp only [messages, List.mem_cons, List.mem_append] at hfree
      have hinputs : left.root hash ++ right.root hash =
          otherLeft.root hash ++ otherRight.root hash :=
        hfree _ (.inl rfl) _ (.inl rfl) hroot
      have hlength := congrArg List.length hinputs
      simp only [List.length_append] at hlength
      have hl := left.length_root hash hhash (fun value h => hhonest value (.inl h))
      have hr := right.length_root hash hhash (fun value h => hhonest value (.inr h))
      have hol := otherLeft.length_root_le hash hhash (fun value h => hclaimed value (.inl h))
      have hor := otherRight.length_root_le hash hhash (fun value h => hclaimed value (.inr h))
      obtain ⟨hleft, hright⟩ := List.append_inj hinputs (by omega)
      obtain ⟨hsl, hsr⟩ := Tree.node.inj hshape
      rw [ihl hsl (fun value h => hhonest value (.inl h)) (fun value h => hclaimed value (.inl h))
          (fun first hf second hs => hfree first (.inr (.inl hf)) second (.inr (.inl hs))) hleft,
        ihr hsr (fun value h => hhonest value (.inr h)) (fun value h => hclaimed value (.inr h))
          (fun first hf second hs => hfree first (.inr (.inr hf)) second (.inr (.inr hs))) hright]

end Binding

end Tree

/-- Recompute a root from the digest at the lower end of a sibling chain. -/
def climb {β : Type} (hash : List β → List β) (bottom : List β) :
    List (Bool × List β) → List β
  | [] => bottom
  | (true, sibling) :: rest => hash (climb hash bottom rest ++ sibling)
  | (false, sibling) :: rest => hash (sibling ++ climb hash bottom rest)

theorem Tree.root_attach {β : Type} (hash : List β → List β) (bottom : Tree (List β))
    (chain : List (Bool × List β)) :
    (bottom.attach chain).root hash = climb hash (bottom.root hash) chain := by
  induction chain with
  | nil => rfl
  | cons step rest ih =>
    obtain ⟨side, sibling⟩ := step
    cases side <;> simp [attach, root, climb, ih]

/-- The strings hashed on the way up. -/
def climbMessages {β : Type} (hash : List β → List β) (bottom : List β) :
    List (Bool × List β) → List (List β)
  | [] => []
  | (true, sibling) :: rest =>
    (climb hash bottom rest ++ sibling) :: climbMessages hash bottom rest
  | (false, sibling) :: rest =>
    (sibling ++ climb hash bottom rest) :: climbMessages hash bottom rest

section Attach

variable {α β : Type}

/-- Hanging a subtree below siblings hashes the subtree's strings and those on
the way up, and no others. -/
theorem Tree.mem_messages_attach (hash : List β → List β) (bottom : Tree (List β))
    (chain : List (Bool × List β)) (message : List β) :
    message ∈ (bottom.attach chain).messages hash ↔
      message ∈ climbMessages hash (bottom.root hash) chain ∨ message ∈ bottom.messages hash := by
  induction chain with
  | nil => simp [attach, climbMessages]
  | cons step rest ih =>
    obtain ⟨side, sibling⟩ := step
    cases side <;> simp [attach, messages, climbMessages, root, root_attach, ih, or_assoc]

theorem Tree.shape_attach {bottom : Tree α} {other : Tree β} (hshape : bottom.shape = other.shape)
    {chain : List (Bool × α)} {links : List (Bool × β)}
    (hsides : chain.map Prod.fst = links.map Prod.fst) :
    (bottom.attach chain).shape = (other.attach links).shape := by
  induction chain generalizing links with
  | nil =>
    obtain rfl := List.map_eq_nil_iff.mp hsides.symm
    exact hshape
  | cons step rest ih =>
    cases links with
    | nil => cases hsides
    | cons link links =>
      obtain ⟨side, sibling⟩ := step
      obtain ⟨linkSide, linkSibling⟩ := link
      obtain ⟨rfl, hrest⟩ := List.cons.inj hsides
      have htail := ih hrest
      simp only [shape] at htail ⊢
      cases side <;> simp only [attach, map, htail]

theorem Tree.mem_leaves_attach {bottom : Tree α} {chain : List (Bool × α)} {value : α}
    (hvalue : value ∈ (bottom.attach chain).leaves) :
    value ∈ bottom.leaves ∨ value ∈ chain.map Prod.snd := by
  induction chain with
  | nil => exact .inl hvalue
  | cons step rest ih =>
    obtain ⟨side, sibling⟩ := step
    cases side <;> simp only [attach, leaves, List.mem_append, List.mem_singleton] at hvalue <;>
      simp only [List.map_cons, List.mem_cons] <;> tauto

theorem Tree.bottom_eq_of_attach_eq {bottom other : Tree α} {chain links : List (Bool × α)}
    (hsides : chain.map Prod.fst = links.map Prod.fst)
    (heq : bottom.attach chain = other.attach links) : bottom = other := by
  induction chain generalizing links with
  | nil =>
    obtain rfl := List.map_eq_nil_iff.mp hsides.symm
    exact heq
  | cons step rest ih =>
    cases links with
    | nil => cases hsides
    | cons link links =>
      obtain ⟨side, sibling⟩ := step
      obtain ⟨linkSide, linkSibling⟩ := link
      obtain ⟨rfl, hrest⟩ := List.cons.inj hsides
      cases side with
      | true => exact ih hrest (Tree.node.inj heq).1
      | false => exact ih hrest (Tree.node.inj heq).2

end Attach

/-- A path below the root as one number: the bits of the path, most
significant first, behind a leading one that stands for the root. -/
def ident (path : List Bool) : Nat := path.foldl (fun code bit => code <<< 1 ||| bit.toNat) 1

theorem shiftLeft_or_toNat (code : Nat) (bit : Bool) :
    code <<< 1 ||| bit.toNat = 2 * code + bit.toNat := by
  have hbit : bit.toNat < 2 ^ 1 := by cases bit <;> decide
  rw [← Nat.shiftLeft_add_eq_or_of_lt hbit, Nat.shiftLeft_eq]
  omega

@[simp] theorem ident_nil : ident [] = 1 := rfl

theorem ident_concat (path : List Bool) (bit : Bool) :
    ident (path ++ [bit]) = ident path <<< 1 ||| bit.toNat := by
  simp [ident]

theorem ident_concat_eq (path : List Bool) (bit : Bool) :
    ident (path ++ [bit]) = 2 * ident path + bit.toNat := by
  rw [ident_concat, shiftLeft_or_toNat]

/-- The bit length of an identifier is the length of its path. -/
theorem ident_bounds (path : List Bool) :
    2 ^ path.length ≤ ident path ∧ ident path < 2 ^ (path.length + 1) := by
  induction path using List.reverseRecOn with
  | nil => simp
  | append_singleton path bit ih =>
    have hbit : bit.toNat ≤ 1 := by cases bit <;> decide
    rw [ident_concat_eq, List.length_append, List.length_singleton, pow_succ, pow_succ]
    rw [pow_succ] at ih
    omega

theorem ident_lt_iff {path : List Bool} {width : Nat} : ident path < 2 ^ width ↔ path.length < width := by
  obtain ⟨hlower, hupper⟩ := ident_bounds path
  constructor
  · intro hfits
    exact (Nat.pow_lt_pow_iff_right Nat.one_lt_two).mp (hlower.trans_lt hfits)
  · intro hshort
    exact hupper.trans_le (Nat.pow_le_pow_right Nat.two_pos hshort)

/-- Different paths have different identifiers. -/
theorem ident_injective : Function.Injective ident := by
  intro first
  induction first using List.reverseRecOn with
  | nil =>
    intro second heq
    have hbound := (ident_bounds second).1
    rw [← heq, ident_nil] at hbound
    have hlength : second.length = 0 := by
      by_contra hne
      have := Nat.one_lt_two_pow hne
      omega
    exact (List.length_eq_zero_iff.mp hlength).symm
  | append_singleton path bit ih =>
    intro second heq
    rcases List.eq_nil_or_concat second with rfl | ⟨other, last, rfl⟩
    · have hbound := (ident_bounds (path ++ [bit])).1
      rw [heq, ident_nil, List.length_append, List.length_singleton, pow_succ] at hbound
      have := Nat.one_le_two_pow (n := path.length)
      omega
    · simp only [List.concat_eq_append, ident_concat_eq] at heq ⊢
      have hparity : bit.toNat = last.toNat ∧ ident path = ident other := by
        have hbit : bit.toNat ≤ 1 := by cases bit <;> decide
        have hlast : last.toNat ≤ 1 := by cases last <;> decide
        omega
      have hbits : bit = last := by cases bit <;> cases last <;> simp_all
      rw [hbits, ih hparity.2]

theorem ident_concat_mod_two (path : List Bool) (bit : Bool) :
    ident (path ++ [bit]) % 2 = bit.toNat := by
  rw [ident_concat_eq]
  cases bit <;> simp

end merkle
