import WalletWall.Library.Checked
import WalletWall.Model.ArchivePaths

/-!
# Which member trees are accepted

A tree has one node for each path that is listed or lies above a listed one, and the node says
what the entries so far say of its path (`nodeOf`). Each loop of `MemberTree.add` extends the named
paths or changes the nodes of some of them (`Represents`), and it stops at the first path that the
entries so far contradict; so the entries are added without a refusal if and only if no two of
them contradict each other, in whatever order they come.
-/

set_option autoImplicit false

namespace WalletWall.CircuitArchive

/-! ## Paths above paths -/

/-- `path` lies above `below`: its components are some of the first components of `below`. -/
def Above (path below : Text) : Prop :=
  path.splitOn '/' <+: below.splitOn '/' ∧ path ≠ below

/-- A path is determined by its components. -/
theorem components_inj {path path' : Text} (h : path.splitOn '/' = path'.splitOn '/') :
    path = path' :=
  calc
    path = ['/'].intercalate (path.splitOn '/') := (List.intercalate_splitOn '/').symm
    _ = ['/'].intercalate (path'.splitOn '/') := by rw [h]
    _ = path' := List.intercalate_splitOn '/'

/-- No component of a path contains a slash. -/
theorem slash_notMem_component (path : Text) : ∀ part ∈ path.splitOn '/', '/' ∉ part := by
  induction path with
  | nil => simp [List.splitOn_nil]
  | cons c path ih =>
      rw [List.splitOn_cons_eq_if_modifyHead]
      split
      · intro part hpart
        rcases List.mem_cons.mp hpart with rfl | hpart
        · exact List.not_mem_nil
        · exact ih part hpart
      · next hc =>
          cases hparts : path.splitOn '/' with
          | nil => exact absurd hparts (List.splitOn_ne_nil _ _)
          | cons first rest =>
              rw [hparts] at ih
              intro part hpart
              rcases List.mem_cons.mp hpart with rfl | hpart
              · rw [List.mem_cons, not_or]
                refine ⟨?_, ih first (List.mem_cons_self ..)⟩
                rintro rfl
                exact hc (beq_self_eq_true _)
              · exact ih part (List.mem_cons_of_mem _ hpart)

/-- The first components of a path, joined by slashes, have just these components. -/
theorem splitOn_joined {parts : List Text} {path : Text} (h : parts <+: path.splitOn '/')
    (hne : parts ≠ []) : (['/'].intercalate parts).splitOn '/' = parts :=
  List.splitOn_intercalate '/' (fun part hpart => slash_notMem_component path part (h.mem hpart)) hne

/-- The ancestors of a path are the paths above it. -/
theorem mem_ancestors {path below : Text} : path ∈ ancestors below ↔ Above path below := by
  unfold ancestors
  dsimp only
  rw [List.mem_map]
  constructor
  · rintro ⟨i, hi, rfl⟩
    rw [List.mem_range'_1] at hi
    have hlen : ((below.splitOn '/').take i).length = i := by
      rw [List.length_take]
      omega
    have hne : (below.splitOn '/').take i ≠ [] := by
      intro hnil
      rw [hnil, List.length_nil] at hlen
      omega
    have hparts := splitOn_joined (List.take_prefix i (below.splitOn '/')) hne
    refine ⟨?_, ?_⟩
    · rw [hparts]
      exact List.take_prefix _ _
    · intro heq
      rw [heq] at hparts
      rw [← hparts] at hlen
      omega
  · rintro ⟨hstart, hne⟩
    have htake := List.prefix_iff_eq_take.mp hstart
    have hpos : 0 < (path.splitOn '/').length :=
      List.length_pos_iff.mpr (List.splitOn_ne_nil _ _)
    have hle := hstart.length_le
    have hlt : (path.splitOn '/').length ≠ (below.splitOn '/').length := by
      intro hlen
      exact hne (components_inj (hstart.eq_of_length hlen))
    refine ⟨(path.splitOn '/').length, ?_, ?_⟩
    · rw [List.mem_range'_1]
      omega
    · rw [← htake, List.intercalate_splitOn]

/-! ## What a tree stands for -/

/-- A member: its path and its kind. -/
abbrev Entry := Text × EntryKind

/-- The paths that are listed or lie above a listed one. -/
def Named (entries : List Entry) (path : Text) : Prop :=
  ∃ e ∈ entries, path = e.1 ∨ Above path e.1

/-- What some entries say of a path. -/
def nodeOf (entries : List Entry) (path : Text) : TreeNode where
  exact := path
  kind := if entries.any (fun e => decide (e = (path, .file))) = true then .file else .directory
  explicit := entries.any fun e => decide (e.1 = path)
  hasFile := entries.any fun e => decide (e.2 = .file) && (ancestors e.1).any fun a => decide (a = path)

/-- No two of the paths differ in case only. -/
def Spelled (named : Text → Prop) : Prop :=
  ∀ p q, named p → named q → lower p = lower q → p = q

/-- The tree has a node for each of the named paths. -/
structure Represents (t : MemberTree) (named : Text → Prop) (node : Text → TreeNode) : Prop where
  lookup : ∀ key n, t.lookup key = some n ↔ ∃ p, named p ∧ lower p = key ∧ n = node p
  exact : ∀ p, (node p).exact = p

section Nodes

variable {entries : List Entry} {path : Text} {kind : EntryKind}

/-- The node of a path is a file exactly when the path is listed as one. -/
theorem file_iff : (nodeOf entries path).kind = .file ↔ (path, .file) ∈ entries := by
  unfold nodeOf
  dsimp only
  split
  · next h => simpa using h
  · next h => simpa using h

/-- The node of a path is explicit exactly when the path is listed itself. -/
theorem explicit_iff : (nodeOf entries path).explicit = true ↔ ∃ k, (path, k) ∈ entries := by
  unfold nodeOf
  simp

/-- The node of a path has a file below it exactly when a listed file lies below the path. -/
theorem hasFile_iff : (nodeOf entries path).hasFile = true ↔
    ∃ f, (f, .file) ∈ entries ∧ Above path f := by
  unfold nodeOf
  simp [← mem_ancestors]

/-- A path of which the entries say nothing. -/
theorem nodeOf_unnamed (h : ¬ Named entries path) :
    nodeOf entries path = ⟨path, .directory, false, false⟩ := by
  have hkind : (nodeOf entries path).kind = .directory := by
    cases hk : (nodeOf entries path).kind with
    | file => exact absurd ⟨_, file_iff.mp hk, .inl rfl⟩ h
    | directory => rfl
  have hexplicit : (nodeOf entries path).explicit = false := by
    refine Bool.eq_false_iff.mpr fun he => h ?_
    obtain ⟨k, hmem⟩ := explicit_iff.mp he
    exact ⟨_, hmem, .inl rfl⟩
  have hfile : (nodeOf entries path).hasFile = false := by
    refine Bool.eq_false_iff.mpr fun hf => h ?_
    obtain ⟨f, hmem, habove⟩ := hasFile_iff.mp hf
    exact ⟨_, hmem, .inr habove⟩
  calc nodeOf entries path
      = ⟨path, (nodeOf entries path).kind, (nodeOf entries path).explicit,
          (nodeOf entries path).hasFile⟩ := rfl
    _ = _ := by rw [hkind, hexplicit, hfile]

/-- With one more entry the named paths are those of before, what lies above the entry, and its own
path. -/
theorem named_append {p : Text} : Named (entries ++ [(path, kind)]) p ↔
    (Named entries p ∨ p ∈ ancestors path) ∨ p = path := by
  rw [mem_ancestors]
  unfold Named
  constructor
  · rintro ⟨e, he, h⟩
    rcases List.mem_append.mp he with he | he
    · exact .inl (.inl ⟨e, he, h⟩)
    · obtain rfl := List.mem_singleton.mp he
      rcases h with rfl | h
      · exact .inr rfl
      · exact .inl (.inr h)
  · rintro ((⟨e, he, h⟩ | h) | rfl)
    · exact ⟨e, List.mem_append_left _ he, h⟩
    · exact ⟨(path, kind), by simp, .inr h⟩
    · exact ⟨(p, kind), by simp, .inl rfl⟩

/-- What one more entry says of its own path. -/
theorem nodeOf_append_self (hfresh : ∀ k, (path, k) ∉ entries) :
    nodeOf (entries ++ [(path, kind)]) path =
      ⟨path, kind, true, (nodeOf entries path).hasFile⟩ := by
  have hself : (ancestors path).any (fun a => decide (a = path)) = false := by
    refine Bool.eq_false_iff.mpr fun h => ?_
    obtain ⟨a, ha, heq⟩ := List.any_eq_true.mp h
    exact (mem_ancestors.mp ha).2 (of_decide_eq_true heq)
  have hfile : entries.any (fun e => decide (e = (path, .file))) = false := by
    refine Bool.eq_false_iff.mpr fun h => ?_
    obtain ⟨e, he, heq⟩ := List.any_eq_true.mp h
    rw [of_decide_eq_true heq] at he
    exact hfresh _ he
  unfold nodeOf
  rw [List.any_append, List.any_append, List.any_append, hfile]
  cases kind <;> simp [hself]

/-- What it says of the other paths. -/
theorem nodeOf_append_of_ne {p : Text} (h : p ≠ path) :
    nodeOf (entries ++ [(path, kind)]) p =
      if kind = .file ∧ p ∈ ancestors path then { nodeOf entries p with hasFile := true }
      else nodeOf entries p := by
  have hne : path ≠ p := fun heq => h heq.symm
  unfold nodeOf
  rw [List.any_append, List.any_append, List.any_append]
  cases kind with
  | directory => simp [hne]
  | file =>
      by_cases ha : p ∈ ancestors path
      · simp [hne, ha]
      · simp [hne, ha]

end Nodes

section Trees

variable {t t' : MemberTree} {named : Text → Prop} {node : Text → TreeNode}

/-- A tree that represents some paths has the node of each of them under its lower-case spelling. -/
theorem Represents.find (h : Represents t named node) {p : Text} (hp : named p) :
    t.lookup (lower p) = some (node p) :=
  (h.lookup _ _).mpr ⟨p, hp, rfl, rfl⟩

/-- No two paths that a tree represents differ in case only. -/
theorem Represents.spelled (h : Represents t named node) : Spelled named := by
  intro p q hp hq heq
  have hnode := h.find hp
  rw [heq, h.find hq, Option.some.injEq] at hnode
  rw [← h.exact p, ← hnode, h.exact]

/-- Where the tree has no node, no path that it represents is spelled so. -/
theorem Represents.absent (h : Represents t named node) {key : Text} (hkey : t.lookup key = none)
    {p : Text} (hp : named p) : lower p ≠ key := by
  rintro rfl
  rw [h.find hp] at hkey
  cases hkey

/-- What a tree represents is given by the paths and their nodes, however these are described. -/
theorem Represents.congr {named' : Text → Prop} {node' : Text → TreeNode}
    (h : Represents t named node) (hnamed : ∀ p, named p ↔ named' p)
    (hnode : ∀ p, node p = node' p) : Represents t named' node' := by
  obtain rfl : named = named' := funext fun p => propext (hnamed p)
  obtain rfl : node = node' := funext hnode
  exact h

/-- A node is written for a path that no named path is spelled like. -/
theorem Represents.insert (h : Represents t named node) {p : Text} {n : TreeNode}
    (hn : n.exact = p) (hp : ∀ q, named q → lower q = lower p → q = p) :
    Represents (t.insert (lower p) n) (fun q => named q ∨ q = p) (Function.update node p n) where
  lookup := by
    intro key m
    by_cases hkey : key = lower p
    · subst hkey
      rw [AList.lookup_insert]
      constructor
      · rintro ⟨⟩
        exact ⟨p, .inr rfl, rfl, by rw [Function.update_self]⟩
      · rintro ⟨q, hq, hlower, rfl⟩
        obtain rfl : q = p := hq.elim (fun hq => hp q hq hlower) id
        rw [Function.update_self]
    · rw [AList.lookup_insert_ne hkey, h.lookup]
      constructor
      · rintro ⟨q, hq, rfl, rfl⟩
        have hne : q ≠ p := by
          rintro rfl
          exact hkey rfl
        exact ⟨q, .inl hq, rfl, by rw [Function.update_of_ne hne]⟩
      · rintro ⟨q, hq, rfl, rfl⟩
        have hne : q ≠ p := by
          rintro rfl
          exact hkey rfl
        exact ⟨q, hq.resolve_right hne, rfl, by rw [Function.update_of_ne hne]⟩
  exact := by
    intro q
    by_cases hq : q = p
    · subst hq
      rw [Function.update_self, hn]
    · rw [Function.update_of_ne hq, h.exact]

/-- A node is written anew. -/
theorem Represents.rewrite (h : Represents t named node) {p : Text} {n : TreeNode}
    (hn : n.exact = p) (hp : named p) :
    Represents (t.insert (lower p) n) named (Function.update node p n) := by
  refine (h.insert hn fun q hq heq => h.spelled q p hq hp heq).congr ?_ fun _ => rfl
  intro q
  constructor
  · rintro (hq | rfl)
    · exact hq
    · exact hp
  · exact .inl

/-! ## The loops of `add` -/

section Loops

open Library

variable {entries : List Entry} {path : Text} {kind : EntryKind} {parents : List Text}

/-- The ancestors are there or added, none of them a file. -/
theorem addParents_ok (hall : ∀ p, Named entries p → named p)
    (h : Represents t named (nodeOf entries)) (hok : addParents t parents = .ok t') :
    (∀ a ∈ parents, (a, .file) ∉ entries) ∧
      Represents t' (fun p => named p ∨ p ∈ parents) (nodeOf entries) := by
  induction parents generalizing t named with
  | nil =>
      obtain rfl := Except.ok.inj hok
      exact ⟨nofun, h.congr (by simp) fun _ => rfl⟩
  | cons a parents ih =>
      unfold addParents at hok
      cases hfind : t.lookup (lower a) with
      | none =>
          rw [hfind] at hok
          have hnew : ¬ Named entries a := fun hnamed => h.absent hfind (hall a hnamed) rfl
          rw [← nodeOf_unnamed hnew] at hok
          have hinsert := h.insert (h.exact a) fun q hq heq => absurd heq (h.absent hfind hq)
          rw [Function.update_eq_self] at hinsert
          obtain ⟨hfiles, ht'⟩ := ih (fun p hp => .inl (hall p hp)) hinsert hok
          refine ⟨?_, ht'.congr (by simp [or_assoc]) fun _ => rfl⟩
          intro b hb
          rcases List.mem_cons.mp hb with rfl | hb
          · exact fun hmem => hnew ⟨_, hmem, .inl rfl⟩
          · exact hfiles b hb
      | some n =>
          rw [hfind] at hok
          dsimp only at hok
          split at hok
          · cases hok
          · next hexact =>
              split at hok
              · cases hok
              · next hkind =>
                  obtain ⟨q, hq, hlower, rfl⟩ := (h.lookup _ _).mp hfind
                  obtain rfl : q = a := by
                    rw [← h.exact q]
                    exact not_not.mp hexact
                  obtain ⟨hfiles, ht'⟩ := ih hall h hok
                  refine ⟨?_, ht'.congr ?_ fun _ => rfl⟩
                  · intro b hb
                    rcases List.mem_cons.mp hb with rfl | hb
                    · exact fun hmem => hkind (file_iff.mpr hmem)
                    · exact hfiles b hb
                  · intro p
                    rw [List.mem_cons]
                    constructor
                    · exact Or.imp_right .inr
                    · rintro (hp | rfl | hp)
                      · exact .inl hp
                      · exact .inl hq
                      · exact .inr hp

/-- The directories above a member can be added when no spelling clashes and none of them is a file.
-/
theorem addParents_total (hall : ∀ p, Named entries p → named p)
    (h : Represents t named (nodeOf entries)) (hspelled : Spelled fun p => named p ∨ p ∈ parents)
    (hfiles : ∀ a ∈ parents, (a, .file) ∉ entries) : ∃ t', addParents t parents = .ok t' := by
  induction parents generalizing t named with
  | nil => exact ⟨t, rfl⟩
  | cons a parents ih =>
      have hrest : ∀ b ∈ parents, (b, .file) ∉ entries :=
        fun b hb => hfiles b (List.mem_cons_of_mem _ hb)
      unfold addParents
      cases hfind : t.lookup (lower a) with
      | none =>
          have hnew : ¬ Named entries a := fun hnamed => h.absent hfind (hall a hnamed) rfl
          have hinsert := h.insert (h.exact a) fun q hq heq => absurd heq (h.absent hfind hq)
          rw [Function.update_eq_self, nodeOf_unnamed hnew] at hinsert
          refine ih (fun p hp => .inl (hall p hp)) hinsert ?_ hrest
          intro p q hp hq
          refine hspelled p q ?_ ?_
          · rcases hp with (hp | rfl) | hp
            · exact .inl hp
            · exact .inr (List.mem_cons_self ..)
            · exact .inr (List.mem_cons_of_mem _ hp)
          · rcases hq with (hq | rfl) | hq
            · exact .inl hq
            · exact .inr (List.mem_cons_self ..)
            · exact .inr (List.mem_cons_of_mem _ hq)
      | some n =>
          obtain ⟨q, hq, hlower, rfl⟩ := (h.lookup _ _).mp hfind
          obtain rfl : q = a := hspelled q a (.inl hq) (.inr (List.mem_cons_self ..)) hlower
          have hkind : (nodeOf entries q).kind ≠ .file :=
            fun hfile => hfiles q (List.mem_cons_self ..) (file_iff.mp hfile)
          dsimp only
          rw [if_neg (not_not.mpr (h.exact q)), if_neg hkind]
          refine ih hall h ?_ hrest
          intro p p' hp hp'
          exact hspelled p p' (hp.imp_right (List.mem_cons_of_mem _))
            (hp'.imp_right (List.mem_cons_of_mem _))

/-- The path itself is new, or a directory that was only implied. -/
theorem addNode_ok (hall : ∀ p, Named entries p → named p)
    (h : Represents t named (nodeOf entries)) (hok : addNode t path kind = .ok t') :
    (∀ k, (path, k) ∉ entries) ∧ (kind = .file → ¬ named path) ∧
      Represents t' (fun p => named p ∨ p = path)
        (Function.update (nodeOf entries) path
          ⟨path, kind, true, (nodeOf entries path).hasFile⟩) := by
  unfold addNode at hok
  cases hfind : t.lookup (lower path) with
  | none =>
      rw [hfind] at hok
      obtain rfl := Except.ok.inj hok
      have habsent : ¬ named path := fun hp => h.absent hfind hp rfl
      have hnew : ¬ Named entries path := fun hp => habsent (hall path hp)
      refine ⟨fun k hmem => hnew ⟨_, hmem, .inl rfl⟩, fun _ => habsent, ?_⟩
      rw [nodeOf_unnamed hnew]
      exact h.insert rfl fun q hq heq => absurd heq (h.absent hfind hq)
  | some n =>
      rw [hfind] at hok
      dsimp only at hok
      split at hok
      · cases hok
      · next hexact =>
          split at hok
          · cases hok
          · next hkind =>
              split at hok
              · cases hok
              · next hfree =>
                  obtain rfl := Except.ok.inj hok
                  obtain ⟨q, hq, hlower, rfl⟩ := (h.lookup _ _).mp hfind
                  obtain rfl : q = path := by
                    rw [← h.exact q]
                    exact not_not.mp hexact
                  rw [not_or] at hfree
                  have hfresh : ∀ k, (q, k) ∉ entries :=
                    fun k hmem => hfree.2 (explicit_iff.mpr ⟨k, hmem⟩)
                  refine ⟨hfresh, fun hfile => absurd hfile hfree.1, ?_⟩
                  have hnode : { nodeOf entries q with explicit := true } =
                      ⟨q, kind, true, (nodeOf entries q).hasFile⟩ := by
                    rw [← not_not.mp hkind]
                    rfl
                  rw [hnode]
                  exact h.insert rfl fun p hp heq => h.spelled p q hp hq heq

/-- A member's own node can be added when no spelling clashes, the path is not listed yet, and a
file has nothing below it. -/
theorem addNode_total (h : Represents t named (nodeOf entries))
    (hspelled : Spelled fun p => named p ∨ p = path) (hfresh : ∀ k, (path, k) ∉ entries)
    (hleaf : kind = .file → ¬ named path) : ∃ t', addNode t path kind = .ok t' := by
  unfold addNode
  cases hfind : t.lookup (lower path) with
  | none => exact ⟨_, rfl⟩
  | some n =>
      obtain ⟨q, hq, hlower, rfl⟩ := (h.lookup _ _).mp hfind
      obtain rfl : q = path := hspelled q path (.inl hq) (.inr rfl) hlower
      have hdirectory : kind = .directory := by
        cases kind with
        | file => exact absurd hq (hleaf rfl)
        | directory => rfl
      have hkind : (nodeOf entries q).kind = .directory := by
        cases hk : (nodeOf entries q).kind with
        | file => exact absurd (file_iff.mp hk) (hfresh _)
        | directory => rfl
      have hexplicit : (nodeOf entries q).explicit ≠ true := by
        intro he
        obtain ⟨k, hmem⟩ := explicit_iff.mp he
        exact hfresh k hmem
      dsimp only
      rw [if_neg (not_not.mpr (h.exact q)), hkind, hdirectory, if_neg (not_not.mpr rfl),
        if_neg (not_or.mpr ⟨nofun, hexplicit⟩)]
      exact ⟨_, rfl⟩

/-- Marking directories as having a file below them changes just that about their nodes. -/
theorem markFile_represents (h : Represents t named node) (hparents : ∀ a ∈ parents, named a) :
    Represents (markFile t parents) named
      (fun p => if p ∈ parents then { node p with hasFile := true } else node p) := by
  induction parents generalizing t node with
  | nil => exact h.congr (fun _ => .rfl) fun _ => rfl
  | cons a parents ih =>
      have ha := hparents a (List.mem_cons_self ..)
      unfold markFile
      rw [h.find ha]
      dsimp only
      have hexact : ({ node a with hasFile := true } : TreeNode).exact = a := h.exact a
      have hmark := h.rewrite hexact ha
      refine (ih hmark fun b hb => hparents b (List.mem_cons_of_mem _ hb)).congr (fun _ => .rfl) ?_
      intro p
      dsimp only
      by_cases hp : p = a
      · subst hp
        rw [Function.update_self, if_pos (List.mem_cons_self ..), ite_self]
      · rw [Function.update_of_ne hp]
        simp only [List.mem_cons, hp, false_or]

/-- An entry that contradicts none of some entries. -/
structure Fits (entries : List Entry) (path : Text) (kind : EntryKind) : Prop where
  spelled : Spelled (Named (entries ++ [(path, kind)]))
  fresh : ∀ k, (path, k) ∉ entries
  parents : ∀ a, Above a path → (a, .file) ∉ entries
  leaf : kind = .file → ¬ Named entries path

/-- **An entry is added if it fits, and the tree then stands for the entries with it.** -/
theorem addMember_ok (h : Represents t (Named entries) (nodeOf entries))
    (hok : addMember t path kind = .ok t') :
    Fits entries path kind ∧
      Represents t' (Named (entries ++ [(path, kind)])) (nodeOf (entries ++ [(path, kind)])) := by
  unfold addMember at hok
  obtain ⟨t₁, hparents, hok⟩ := bind_eq_ok.mp hok
  obtain ⟨t₂, hnode, hok⟩ := bind_eq_ok.mp hok
  obtain rfl := Except.ok.inj hok
  obtain ⟨hfiles, h₁⟩ := addParents_ok (fun _ => id) h hparents
  obtain ⟨hfresh, hleaf, h₂⟩ := addNode_ok (fun _ => .inl) h₁ hnode
  have hrep : Represents (if kind = .file then markFile t₂ (ancestors path) else t₂)
      (Named (entries ++ [(path, kind)])) (nodeOf (entries ++ [(path, kind)])) := by
    split
    · next hkind =>
        refine (markFile_represents h₂ fun a ha => .inl (.inr ha)).congr
          (fun p => named_append.symm) ?_
        intro p
        by_cases hp : p = path
        · subst hp
          rw [Function.update_self, nodeOf_append_self hfresh, if_neg]
          exact fun hself => (mem_ancestors.mp hself).2 rfl
        · rw [Function.update_of_ne hp, nodeOf_append_of_ne hp]
          simp only [hkind, true_and]
    · next hkind =>
        refine h₂.congr (fun p => named_append.symm) ?_
        intro p
        by_cases hp : p = path
        · subst hp
          rw [Function.update_self, nodeOf_append_self hfresh]
        · rw [Function.update_of_ne hp, nodeOf_append_of_ne hp, if_neg fun h => hkind h.1]
  refine ⟨⟨hrep.spelled, hfresh, ?_, ?_⟩, hrep⟩
  · intro a ha
    exact hfiles a (mem_ancestors.mpr ha)
  · intro hkind hnamed
    exact hleaf hkind (.inl hnamed)

/-- A member that fits the entries of before is added without an error. -/
theorem addMember_total (h : Represents t (Named entries) (nodeOf entries))
    (hfits : Fits entries path kind) : ∃ t', addMember t path kind = .ok t' := by
  have hspelled : Spelled fun p => (Named entries p ∨ p ∈ ancestors path) ∨ p = path := by
    intro p q hp hq
    exact hfits.spelled p q (named_append.mpr hp) (named_append.mpr hq)
  obtain ⟨t₁, hparents⟩ := addParents_total (fun _ => id) h
    (fun p q hp hq => hspelled p q (.inl hp) (.inl hq))
    fun a ha => hfits.parents a (mem_ancestors.mp ha)
  obtain ⟨-, h₁⟩ := addParents_ok (fun _ => id) h hparents
  have hleaf : kind = .file → ¬ (Named entries path ∨ path ∈ ancestors path) := by
    rintro hkind (hnamed | hself)
    · exact hfits.leaf hkind hnamed
    · exact (mem_ancestors.mp hself).2 rfl
  obtain ⟨t₂, hnode⟩ := addNode_total h₁ hspelled hfits.fresh hleaf
  unfold addMember
  rw [hparents, ok_bind, hnode, ok_bind]
  exact ⟨_, rfl⟩

end Loops

end Trees

/-! ## Whole lists -/

/-- The entries added in sequence, and the tree finished. -/
def accepted (entries : List Entry) : Bool :=
  match entries.foldlM (fun t e => addMember t e.1 e.2) ∅ with
  | .ok t => finishTree t = none
  | .error _ => false

/-- A list of members that is a tree, however its paths are compared. -/
structure ConsistentTree (entries : List Entry) : Prop where
  once : (entries.map Prod.fst).Nodup
  spelled : ∀ p q, Named entries p → Named entries q → lower p = lower q → p = q
  files : ∀ f, (f, .file) ∈ entries → (f, .directory) ∉ entries ∧ ∀ e ∈ entries, ¬ Above f e.1
  occupied : ∀ d, ((d, .directory) ∈ entries ∨ ∃ e ∈ entries, Above d e.1) →
    ∃ f, (f, .file) ∈ entries ∧ Above d f

section Lists

variable {t : MemberTree} {entries : List Entry} {path : Text} {kind : EntryKind}

/-- Whenever entries have been added without an error, the tree represents the paths that they name.
-/
theorem added_represents (h : entries.foldlM (fun t e => addMember t e.1 e.2) ∅ = .ok t) :
    Represents t (Named entries) (nodeOf entries) := by
  induction entries using List.reverseRecOn generalizing t with
  | nil =>
      obtain rfl := Except.ok.inj h
      refine ⟨?_, fun _ => rfl⟩
      intro key n
      rw [AList.lookup_empty]
      constructor
      · exact nofun
      · rintro ⟨p, ⟨e, he, -⟩, -⟩
        cases he
  | append_singleton entries e ih =>
      rw [List.foldlM_append] at h
      obtain ⟨t₀, h₀, h⟩ := Library.bind_eq_ok.mp h
      rw [List.foldlM_cons] at h
      obtain ⟨t₁, h₁, h⟩ := Library.bind_eq_ok.mp h
      obtain rfl := Except.ok.inj h
      exact (addMember_ok (ih h₀) h₁).2

/-- The entries up to any one fit. -/
def AllFit (entries : List Entry) : Prop :=
  ∀ before e, before ++ [e] <+: entries → Fits before e.1 e.2

/-- One more entry fits in sequence when those before do and it fits them. -/
theorem AllFit.snoc {e : Entry} : AllFit (entries ++ [e]) ↔
    AllFit entries ∧ Fits entries e.1 e.2 := by
  constructor
  · intro h
    refine ⟨fun before e' hstart => h before e' (hstart.trans (List.prefix_append _ _)), ?_⟩
    exact h entries e List.prefix_rfl
  · rintro ⟨h, he⟩ before e' hstart
    rcases List.prefix_concat_iff.mp hstart with heq | hstart
    · obtain ⟨rfl, hlast⟩ := List.append_inj' heq rfl
      obtain rfl := List.singleton_inj.mp hlast
      exact he
    · exact h before e' hstart

/-- Entries are added without an error exactly when each of them fits those before it. -/
theorem added_iff :
    (∃ t, entries.foldlM (fun t e => addMember t e.1 e.2) ∅ = .ok t) ↔ AllFit entries := by
  induction entries using List.reverseRecOn with
  | nil =>
      refine ⟨fun _ before e hstart => ?_, fun _ => ⟨∅, rfl⟩⟩
      exact absurd (List.prefix_nil.mp hstart) (by simp)
  | append_singleton entries e ih =>
      rw [AllFit.snoc, ← ih]
      constructor
      · rintro ⟨t, h⟩
        rw [List.foldlM_append] at h
        obtain ⟨t₀, h₀, h⟩ := Library.bind_eq_ok.mp h
        rw [List.foldlM_cons] at h
        obtain ⟨t₁, h₁, -⟩ := Library.bind_eq_ok.mp h
        exact ⟨⟨t₀, h₀⟩, (addMember_ok (added_represents h₀) h₁).1⟩
      · rintro ⟨⟨t₀, h₀⟩, hfits⟩
        obtain ⟨t₁, h₁⟩ := addMember_total (added_represents h₀) hfits
        refine ⟨t₁, ?_⟩
        rw [List.foldlM_append, h₀, Library.ok_bind, List.foldlM_cons, h₁, Library.ok_bind]
        rfl

/-- A path that some entries name is named with one more entry too. -/
theorem Named.append {p : Text} (h : Named entries p) (e : Entry) : Named (entries ++ [e]) p :=
  h.imp fun _ he => ⟨List.mem_append_left _ he.1, he.2⟩

/-- What a consistent tree asks of its paths before it is finished. -/
structure Agreeing (entries : List Entry) : Prop where
  once : (entries.map Prod.fst).Nodup
  spelled : Spelled (Named entries)
  files : ∀ f, (f, .file) ∈ entries → (f, .directory) ∉ entries ∧ ∀ e ∈ entries, ¬ Above f e.1

/-- One more entry agrees with some entries if it fits. -/
theorem Agreeing.snoc : Agreeing (entries ++ [(path, kind)]) ↔
    Agreeing entries ∧ Fits entries path kind := by
  have hlast : (path, kind) ∈ entries ++ [(path, kind)] := by simp
  have hmap : (entries ++ [(path, kind)]).map Prod.fst = entries.map Prod.fst ++ [path] := by simp
  constructor
  · rintro ⟨honce, hspelled, hfiles⟩
    rw [hmap, List.nodup_append] at honce
    obtain ⟨honce, -, hnew⟩ := honce
    have hfresh : ∀ k, (path, k) ∉ entries := by
      intro k hmem
      exact hnew path (List.mem_map_of_mem hmem) path (List.mem_singleton_self _) rfl
    refine ⟨⟨honce, ?_, ?_⟩, hspelled, hfresh, ?_, ?_⟩
    · intro p q hp hq
      exact hspelled p q (hp.append _) (hq.append _)
    · intro f hf
      obtain ⟨hdirectory, habove⟩ := hfiles f (List.mem_append_left _ hf)
      refine ⟨fun hmem => hdirectory (List.mem_append_left _ hmem), ?_⟩
      exact fun e he => habove e (List.mem_append_left _ he)
    · intro a ha hmem
      exact (hfiles a (List.mem_append_left _ hmem)).2 _ hlast ha
    · rintro rfl ⟨e, he, rfl | habove⟩
      · exact hfresh e.2 he
      · exact (hfiles path hlast).2 e (List.mem_append_left _ he) habove
  · rintro ⟨⟨honce, -, hfiles⟩, hspelled, hfresh, hparents, hleaf⟩
    refine ⟨?_, hspelled, ?_⟩
    · rw [hmap, List.nodup_append]
      refine ⟨honce, List.nodup_singleton _, ?_⟩
      intro p hp q hq heq
      obtain rfl := List.mem_singleton.mp hq
      obtain ⟨e, he, rfl⟩ := List.mem_map.mp hp
      rw [← heq] at hfresh
      exact hfresh e.2 he
    · intro f hf
      rcases List.mem_append.mp hf with hold | hnew
      · obtain ⟨hdirectory, habove⟩ := hfiles f hold
        refine ⟨?_, ?_⟩
        · intro hmem
          rcases List.mem_append.mp hmem with hmem | hmem
          · exact hdirectory hmem
          · obtain ⟨rfl, -⟩ := Prod.mk.inj (List.mem_singleton.mp hmem)
            exact hfresh _ hold
        · intro e he
          rcases List.mem_append.mp he with he | he
          · exact habove e he
          · obtain rfl := List.mem_singleton.mp he
            exact fun h => hparents f h hold
      · obtain ⟨rfl, hkind⟩ := Prod.mk.inj (List.mem_singleton.mp hnew)
        refine ⟨?_, ?_⟩
        · intro hmem
          rcases List.mem_append.mp hmem with hmem | hmem
          · exact hfresh _ hmem
          · obtain ⟨-, hkind'⟩ := Prod.mk.inj (List.mem_singleton.mp hmem)
            rw [← hkind] at hkind'
            cases hkind'
        · intro e he habove
          rcases List.mem_append.mp he with he | he
          · exact hleaf hkind.symm ⟨e, he, .inr habove⟩
          · obtain rfl := List.mem_singleton.mp he
            exact habove.2 rfl

/-- Entries fit in sequence exactly when they agree as a whole, which does not depend on their
order. -/
theorem allFit_iff : AllFit entries ↔ Agreeing entries := by
  induction entries using List.reverseRecOn with
  | nil =>
      constructor
      · intro _
        exact ⟨List.nodup_nil, fun p q hp => by simp [Named] at hp, nofun⟩
      · intro _ before e hstart
        exact absurd (List.prefix_nil.mp hstart) (by simp)
  | append_singleton entries e ih => rw [AllFit.snoc, Agreeing.snoc, ih]

/-- Every directory has a member beneath it. -/
theorem finishTree_iff (h : Represents t (Named entries) (nodeOf entries)) :
    finishTree t = none ↔
      ∀ p, Named entries p → (p, .file) ∉ entries → ∃ f, (f, .file) ∈ entries ∧ Above p f := by
  unfold finishTree
  rw [ite_eq_right_iff]
  constructor
  · intro hnone p hp hdirectory
    by_contra hempty
    refine absurd (hnone ?_) (by simp)
    refine List.any_eq_true.mpr ⟨⟨lower p, nodeOf entries p⟩, ?_, ?_⟩
    · exact AList.mem_lookup_iff.mp (h.find hp)
    · have hfile : (nodeOf entries p).hasFile = false :=
        Bool.eq_false_iff.mpr fun hf => hempty (hasFile_iff.mp hf)
      have hkind : (nodeOf entries p).kind = .directory := by
        cases hk : (nodeOf entries p).kind with
        | file => exact absurd (file_iff.mp hk) hdirectory
        | directory => rfl
      dsimp only
      rw [hfile, hkind]
      rfl
  · intro hall hany
    exfalso
    obtain ⟨⟨key, n⟩, hmem, hn⟩ := List.any_eq_true.mp hany
    obtain ⟨p, hp, -, rfl⟩ := (h.lookup key n).mp (AList.mem_lookup_iff.mpr hmem)
    rw [Bool.and_eq_true, beq_iff_eq, Bool.not_eq_true'] at hn
    have hdirectory : (p, .file) ∉ entries := by
      intro hfile
      rw [file_iff.mpr hfile] at hn
      exact absurd hn.1 (by decide)
    have hfile := hasFile_iff.mpr (hall p hp hdirectory)
    rw [hn.2] at hfile
    cases hfile

/-- **A list of members is accepted exactly when it is a consistent tree.** -/
theorem accepted_iff : accepted entries = true ↔ ConsistentTree entries := by
  have hsplit : accepted entries = true ↔
      ∃ t, entries.foldlM (fun t e => addMember t e.1 e.2) ∅ = .ok t ∧ finishTree t = none := by
    unfold accepted
    cases entries.foldlM (fun t e => addMember t e.1 e.2) ∅ with
    | error reason => simp
    | ok t => simp
  rw [hsplit]
  constructor
  · rintro ⟨t, hadded, hfinish⟩
    obtain ⟨honce, hspelled, hfiles⟩ := allFit_iff.mp (added_iff.mp ⟨t, hadded⟩)
    refine ⟨honce, hspelled, hfiles, ?_⟩
    have hall := (finishTree_iff (added_represents hadded)).mp hfinish
    rintro d (hd | ⟨e, he, habove⟩)
    · exact hall d ⟨_, hd, .inl rfl⟩ fun hfile => (hfiles d hfile).1 hd
    · exact hall d ⟨e, he, .inr habove⟩ fun hfile => (hfiles d hfile).2 e he habove
  · rintro ⟨honce, hspelled, hfiles, hoccupied⟩
    obtain ⟨t, hadded⟩ := added_iff.mpr (allFit_iff.mpr ⟨honce, hspelled, hfiles⟩)
    refine ⟨t, hadded, (finishTree_iff (added_represents hadded)).mpr ?_⟩
    rintro p ⟨⟨path, kind⟩, he, rfl | habove⟩ hdirectory
    · cases kind with
      | file => exact absurd he hdirectory
      | directory => exact hoccupied _ (.inl he)
    · exact hoccupied p (.inr ⟨_, he, habove⟩)

/-- A consistent tree stays one in any order of its members. -/
theorem ConsistentTree.perm {entries' : List Entry} (hperm : entries.Perm entries')
    (h : ConsistentTree entries) : ConsistentTree entries' := by
  have hmem : ∀ e, e ∈ entries' ↔ e ∈ entries := fun e => hperm.mem_iff.symm
  have hnamed : ∀ p, Named entries' p ↔ Named entries p := by
    intro p
    unfold Named
    simp only [hmem]
  refine ⟨(hperm.map _).nodup_iff.mp h.once, ?_, ?_, ?_⟩
  · intro p q hp hq
    exact h.spelled p q ((hnamed p).mp hp) ((hnamed q).mp hq)
  · simp only [hmem]
    exact h.files
  · simp only [hmem]
    exact h.occupied

/-- **The tree accepts exactly the consistent lists of members, in any order.** -/
theorem memberTree_accepts_consistent (entries : List Entry) :
    (accepted entries = true ↔ ConsistentTree entries) ∧
      ∀ entries', entries.Perm entries' → accepted entries' = accepted entries := by
  refine ⟨accepted_iff, ?_⟩
  intro entries' hperm
  rw [Bool.eq_iff_iff, accepted_iff, accepted_iff]
  exact ⟨ConsistentTree.perm hperm.symm, ConsistentTree.perm hperm⟩

example : accepted [("a/b".toList, .file), ("a".toList, .directory)] = true := by decide

example : accepted [("a".toList, .directory), ("A/b".toList, .file)] = false := by decide

end Lists

end WalletWall.CircuitArchive
