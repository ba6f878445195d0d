import WalletWall.Library.ElidedRuns
import WalletWall.Analysis.MemberTrees
import WalletWall.Model.CircuitInstall

/-!
# What a verified tree is

`walkTree` lists every file and every directory that a path leads to, under the text of the path
(`walkTree_lists`), and the texts of different paths differ. So a tree that passes the checks of
`verifyTree` is exactly what the record says (`isExactly_of_checks`), given that no two members of
the record have one path, which the order of the members shows (`members_distinct`).
-/

set_option autoImplicit false

namespace WalletWall.CircuitInstall

open Library CircuitArchive

/-! ## Paths and their texts -/

/-- The text of a path. -/
def pathText (p : List Name) : Text := ['/'].intercalate (p.map Subtype.val)

/-- A name is not empty. -/
theorem name_ne_nil (n : Name) : n.1 ≠ [] := n.2.1

/-- There is no slash in a name. -/
theorem slash_notMem_name (n : Name) : '/' ∉ n.1 := n.2.2.2.2

variable {p : List Name}

/-- The text of a path is split into its names. -/
theorem splitOn_pathText (hp : p ≠ []) :
    (pathText p).splitOn '/' = p.map Subtype.val := by
  refine List.splitOn_intercalate '/' ?_ (fun h => hp (List.map_eq_nil_iff.mp h))
  intro part hpart
  obtain ⟨n, -, rfl⟩ := List.mem_map.mp hpart
  exact slash_notMem_name n

/-- The text of a path is empty exactly when the path is. -/
theorem pathText_eq_nil : pathText p = [] ↔ p = [] := by
  constructor
  · intro h
    by_contra hp
    have hsplit := splitOn_pathText hp
    rw [h, List.splitOn_nil] at hsplit
    cases p with
    | nil => exact hp rfl
    | cons n p =>
        rw [List.map_cons] at hsplit
        exact name_ne_nil n (List.cons.inj hsplit).1.symm
  · rintro rfl
    rfl

/-- The text of a name under a path is the text of the path with that name. -/
theorem pathUnder_pathText (p : List Name) (n : Name) :
    pathUnder (pathText p) n = pathText (p ++ [n]) := by
  unfold pathUnder
  by_cases hp : p = []
  · subst hp
    rw [if_pos (pathText_eq_nil.mpr rfl)]
    exact (List.intercalate_singleton ..).symm
  · rw [if_neg (fun h => hp (pathText_eq_nil.mp h))]
    unfold pathText
    rw [List.map_append]
    rw [List.map_singleton,
      intercalate_append (fun h => hp (List.map_eq_nil_iff.mp h)) (List.cons_ne_nil _ _),
      List.intercalate_singleton, List.append_assoc, List.singleton_append]

/-- A text whose components are names is a path. -/
theorem toFs_isSome {rel : Text} (h : ∀ part ∈ rel.splitOn '/', IsName part) :
    (toFs rel).isSome = true := by
  unfold toFs
  split
  · rfl
  · generalize rel.splitOn '/' = parts at h
    induction parts with
    | nil => rfl
    | cons part parts ih =>
        rw [List.mapM_cons, dif_pos (h part (List.mem_cons_self ..))]
        have ih := ih fun q hq => h q (List.mem_cons_of_mem _ hq)
        obtain ⟨path, hpath⟩ := Option.isSome_iff_exists.mp ih
        rw [Option.bind_eq_bind, Option.bind_some, hpath]
        rfl

/-- A text that names a path is the text of that path. -/
theorem toFs_eq_some {rel : Text} (hrel : rel ≠ []) (h : toFs rel = some p) :
    pathText p = rel := by
  unfold toFs at h
  rw [if_neg hrel] at h
  have hparts : p.map Subtype.val = rel.splitOn '/' := by
    generalize rel.splitOn '/' = parts at h
    induction parts generalizing p with
    | nil =>
        cases h
        rfl
    | cons part parts ih =>
        rw [List.mapM_cons] at h
        split at h
        · rw [Option.bind_eq_bind, Option.bind_some] at h
          obtain ⟨rest, hrest, hp⟩ := Option.bind_eq_some_iff.mp h
          cases hp
          rw [List.map_cons, ih hrest]
        · cases h
  rw [pathText, hparts, List.intercalate_splitOn]

/-- The text of a path names it. -/
theorem toFs_pathText (hp : p ≠ []) : toFs (pathText p) = some p := by
  have hparts : ∀ part ∈ (pathText p).splitOn '/', IsName part := by
    rw [splitOn_pathText hp]
    intro part hpart
    obtain ⟨n, -, rfl⟩ := List.mem_map.mp hpart
    exact n.2
  obtain ⟨q, hq⟩ := Option.isSome_iff_exists.mp (toFs_isSome hparts)
  have htext := toFs_eq_some (fun h => hp (pathText_eq_nil.mp h)) hq
  have hqne : q ≠ [] := by
    rintro rfl
    exact hp (pathText_eq_nil.mp htext.symm)
  have hmap : q.map Subtype.val = p.map Subtype.val := by
    rw [← splitOn_pathText hqne, ← splitOn_pathText hp, htext]
  rw [hq, List.map_injective_iff.mpr Subtype.val_injective hmap]

/-! ## The walk -/

/-- An entry is listed under a text: links and special files never are. -/
def Listed (found : List Text × List Text) (text : Text) : Entry → Prop
  | .file _ => text ∈ found.1
  | .directory _ => text ∈ found.2
  | .link => False
  | .special => False

/-- What is listed stays so in longer lists. -/
theorem Listed.mono {found found' : List Text × List Text} {text : Text} {node : Entry}
    (h : Listed found text node) (hfiles : found.1 ⊆ found'.1)
    (hdirectories : found.2 ⊆ found'.2) : Listed found' text node := by
  cases node with
  | file content => exact hfiles h
  | directory inside => exact hdirectories h
  | link => exact h
  | special => exact h

/-- **A walk lists all that stands at some path.** -/
theorem walkTree_lists {code : Code} {f : Tree} {above : List Name} {found : List Text × List Text}
    (h : walkTree code (pathText above) f = .ok found) {n : Name} {ns : List Name} {node : Entry}
    (hget : f.get (n :: ns) = some node) : Listed found (pathText (above ++ n :: ns)) node := by
  induction f generalizing above found n ns node with
  | empty => cases hget
  | link m rest _ => cases h
  | special m rest _ => cases h
  | file m content rest ih =>
      unfold walkTree at h
      obtain ⟨others, hothers, h⟩ := bind_eq_ok.mp h
      cases h
      by_cases hn : n = m
      · subst hn
        have hentry : (Folder.file n content rest).entry n = some (.file content) := if_pos rfl
        rw [Folder.get_leaf hentry (fun _ hdir => by cases hdir)] at hget
        split at hget
        · next hns =>
          subst hns
          cases hget
          rw [← pathUnder_pathText]
          exact List.mem_cons_self ..
        · cases hget
      · have hentry : (Folder.file m content rest).entry n = rest.entry n := if_neg hn
        rw [Folder.get_congr hentry] at hget
        exact (ih hothers hget).mono (List.subset_cons_self _ _) (List.Subset.refl _)
  | directory m inside rest ihinside ih =>
      unfold walkTree at h
      obtain ⟨below, hbelow, h⟩ := bind_eq_ok.mp h
      obtain ⟨others, hothers, h⟩ := bind_eq_ok.mp h
      cases h
      by_cases hn : n = m
      · subst hn
        have hentry : (Folder.directory n inside rest).entry n = some (.directory inside) :=
          if_pos rfl
        rw [Folder.get_directory hentry] at hget
        cases ns with
        | nil =>
            rw [Folder.get_nil] at hget
            cases hget
            rw [← pathUnder_pathText]
            exact List.mem_cons_self ..
        | cons n' ns =>
            rw [pathUnder_pathText] at hbelow
            have hlisted := ihinside hbelow hget
            rw [List.append_assoc, List.singleton_append] at hlisted
            refine hlisted.mono (List.subset_append_left _ _) ?_
            exact List.Subset.trans (List.subset_append_left _ _) (List.subset_cons_self _ _)
      · have hentry : (Folder.directory m inside rest).entry n = rest.entry n := if_neg hn
        rw [Folder.get_congr hentry] at hget
        refine (ih hothers hget).mono (List.subset_append_right _ _) ?_
        exact List.Subset.trans (List.subset_append_right _ _) (List.subset_cons_self _ _)

/-! ## The record -/

/-- The members of an accepted record come in the order of their paths. -/
theorem checkMembers_ordered {before : Option Text} {tree : MemberTree} {ms : List ScannedMember}
    (h : checkMembers before tree ms = .ok ()) :
    ms.Pairwise (fun a b => a.path < b.path) ∧ ∀ b, before = some b → ∀ m ∈ ms, b < m.path := by
  induction ms generalizing before tree with
  | nil => exact ⟨.nil, fun _ _ => List.forall_mem_nil _⟩
  | cons m ms ih =>
      obtain ⟨tree', hm, hms⟩ := bind_eq_ok.mp h
      obtain ⟨hpairwise, hafter⟩ := ih hms
      have hfirst := hafter m.path rfl
      refine ⟨.cons hfirst hpairwise, ?_⟩
      rintro b rfl
      have hb : b < m.path := by
        unfold checkMember at hm
        obtain ⟨_, -, hm⟩ := bind_eq_ok.mp hm
        obtain ⟨_, -, hm⟩ := bind_eq_ok.mp hm
        obtain ⟨_, -, hm⟩ := bind_eq_ok.mp hm
        obtain ⟨_, horder, -⟩ := bind_eq_ok.mp hm
        have horder : ¬ outOfOrder (some b) m.path = true := revertIf_eq_ok.mp horder
        unfold outOfOrder at horder
        by_contra hlt
        exact horder (by rw [Option.any_some, decide_eq_false hlt]; rfl)
      exact List.forall_mem_cons.mpr ⟨hb, fun m' hm' => lt_trans hb (hfirst m' hm')⟩

variable {anchor : ArchiveAnchor}

/-- **No two members of an accepted record have one path.** -/
theorem members_distinct {r : ArchiveRecord} (h : acceptedRecord r anchor = .ok r)
    {a b : ScannedMember} (ha : a ∈ r.members) (hb : b ∈ r.members) (hpath : a.path = b.path) :
    a = b := by
  have hcheck : checkRecord r anchor = .ok () := by
    unfold acceptedRecord at h
    cases hr : checkRecord r anchor with
    | ok _ => rfl
    | error rule =>
        rw [hr] at h
        cases h
  unfold checkRecord at hcheck
  obtain ⟨_, -, hcheck⟩ := bind_eq_ok.mp hcheck
  obtain ⟨_, -, hcheck⟩ := bind_eq_ok.mp hcheck
  obtain ⟨_, hmembers, -⟩ := bind_eq_ok.mp hcheck
  have hordered := (checkMembers_ordered hmembers).1
  have hnodup : (r.members.map ScannedMember.path).Nodup :=
    List.pairwise_map.mpr (hordered.imp fun hlt => ne_of_lt hlt)
  exact List.inj_on_of_nodup_map hnodup ha hb hpath

/-- What is found under a path is a member of the list with that path. -/
theorem named_eq_some {l : List ScannedMember} {path : Text} {m : ScannedMember}
    (h : named l path = some m) : m ∈ l ∧ m.path = path := by
  refine ⟨List.mem_reverse.mp (List.mem_of_find?_eq_some h), ?_⟩
  have hpath := List.find?_some h
  exact eq_of_beq hpath

/-- Where something is found under a path, a member of the list has it. -/
theorem exists_of_named {l : List ScannedMember} {path : Text} (h : (named l path).isNone = false) :
    ∃ m ∈ l, m.path = path := by
  obtain ⟨m, hm⟩ := Option.isSome_iff_exists.mp (Option.isNone_eq_false_iff.mp h)
  exact ⟨m, (named_eq_some hm).1, (named_eq_some hm).2⟩

/-- What is measured without an error is in the record, and all of the record is measured. -/
theorem memberSetErrors_nil {actual expected : List ScannedMember}
    (h : memberSetErrors actual expected anchor = []) :
    (∀ a ∈ actual, a ∈ expected) ∧ ∀ w ∈ expected, ∃ a ∈ actual, a.path = w.path := by
  unfold memberSetErrors at h
  obtain ⟨h, -⟩ := List.append_eq_nil_iff.mp h
  obtain ⟨hwrong, hmissing⟩ := List.append_eq_nil_iff.mp h
  rw [List.map_eq_nil_iff] at hwrong hmissing
  constructor
  · intro a ha
    have hnone := List.filterMap_eq_nil_iff.mp hwrong a ha
    unfold memberError at hnone
    split at hnone
    · cases hnone
    · next w hw =>
      split at hnone
      · cases hnone
      · next hbytes =>
        split at hnone
        · cases hnone
        · next hhash =>
          obtain ⟨hmem, hpath⟩ := named_eq_some hw
          have heq : a = w := by
            cases a
            cases w
            rw [ScannedMember.mk.injEq]
            exact ⟨hpath.symm, not_not.mp hbytes, not_not.mp hhash⟩
          exact heq ▸ hmem
  · intro w hw
    have hfound := List.filter_eq_nil_iff.mp hmissing w hw
    exact exists_of_named (Bool.eq_false_iff.mpr hfound)

/-! ## A tree that passes -/

variable {sha256 : Bytes → Text}

/-- The member that a file is. -/
def memberAt (sha256 : Bytes → Text) (text : Text) (content : Bytes) : ScannedMember :=
  ⟨text, content.length, sha256 content⟩

/-- What was measured of a file of the tree. -/
def Measured (sha256 : Bytes → Text) (tree : Tree) (m : ScannedMember) : Prop :=
  ∃ p content, toFs m.path = some p ∧ tree.get p = some (.file content) ∧
    m = memberAt sha256 m.path content

/-- **The tree is the record**: its files are the members, with their lengths and hashes, its
directories what lies above members, and there is nothing else in it. -/
structure IsExactly (sha256 : Bytes → Text) (members : List ScannedMember) (tree : Tree) :
    Prop where
  files : ∀ p content, tree.get p = some (.file content) →
    memberAt sha256 (pathText p) content ∈ members
  complete : ∀ m ∈ members, ∃ p content, tree.get p = some (.file content) ∧
    m = memberAt sha256 (pathText p) content
  directories : ∀ p, p ≠ [] →
    ((∃ g, tree.get p = some (.directory g)) ↔ pathText p ∈ ancestorsOf members)
  plain : ∀ p, tree.get p ≠ some .link ∧ tree.get p ≠ some .special

/-- A file of the tree, under the text of its path. -/
theorem Measured.at_path {tree : Tree} {m : ScannedMember} (h : Measured sha256 tree m) :
    ∃ p content, p ≠ [] ∧ tree.get p = some (.file content) ∧
      m = memberAt sha256 (pathText p) content := by
  obtain ⟨p, content, hp, hget, hm⟩ := h
  have hne : p ≠ [] := by
    rintro rfl
    rw [Folder.get_nil] at hget
    cases hget
  have hpath : m.path ≠ [] := by
    intro hnil
    rw [hnil] at hp
    cases hp
    exact hne rfl
  exact ⟨p, content, hne, hget, by rw [toFs_eq_some hpath hp]; exact hm⟩

/-- **A tree that passes the checks of `verifyTree` is the record.** -/
theorem isExactly_of_checks {tree : Tree} {code : Code} {found : List Text × List Text}
    {members measured : List ScannedMember} (hwalk : walkTree code [] tree = .ok found)
    (hextra : ¬ ∃ d ∈ found.2, d ∉ ancestorsOf members)
    (hpaths : measured.map ScannedMember.path = found.1)
    (hmeasured : ∀ m ∈ measured, Measured sha256 tree m)
    (herrors : memberSetErrors measured members anchor = [])
    (hdistinct : ∀ a ∈ members, ∀ b ∈ members, a.path = b.path → a = b) :
    IsExactly sha256 members tree := by
  obtain ⟨hactual, hexpected⟩ := memberSetErrors_nil herrors
  have hlisted : ∀ {p : List Name} {node : Entry}, p ≠ [] → tree.get p = some node →
      Listed found (pathText p) node := by
    intro p node hp hget
    obtain ⟨n, ns, rfl⟩ := List.exists_cons_of_ne_nil hp
    exact @walkTree_lists code tree [] found hwalk n ns node hget
  have hmembers : ∀ m ∈ members, Measured sha256 tree m := by
    intro m hm
    obtain ⟨a, ha, hpath⟩ := hexpected m hm
    rw [← hdistinct a (hactual a ha) m hm hpath]
    exact hmeasured a ha
  refine ⟨?_, ?_, ?_, ?_⟩
  · intro p content hget
    have hp : p ≠ [] := by
      rintro rfl
      rw [Folder.get_nil] at hget
      cases hget
    have hfile : pathText p ∈ found.1 := hlisted hp hget
    rw [← hpaths] at hfile
    obtain ⟨m, hm, hpath⟩ := List.mem_map.mp hfile
    obtain ⟨q, content', hq, hget', heq⟩ := hmeasured m hm
    rw [hpath, toFs_pathText hp] at hq
    cases hq
    rw [hget] at hget'
    cases hget'
    rw [← hpath, ← heq]
    exact hactual m hm
  · intro m hm
    obtain ⟨p, content, -, hget, heq⟩ := (hmembers m hm).at_path
    exact ⟨p, content, hget, heq⟩
  · intro p hp
    constructor
    · rintro ⟨g, hget⟩
      by_contra hnone
      exact hextra ⟨pathText p, hlisted hp hget, hnone⟩
    · intro habove
      obtain ⟨m, hm, hanc⟩ := List.mem_flatMap.mp habove
      obtain ⟨q, content, hq, hget, rfl⟩ := (hmembers m hm).at_path
      obtain ⟨hstart, hne⟩ := mem_ancestors.mp hanc
      rw [splitOn_pathText hp] at hstart
      have hstart : p.map Subtype.val <+: q.map Subtype.val := by
        rw [← splitOn_pathText hq]
        exact hstart
      obtain ⟨rest, rfl⟩ := (List.prefix_map_iff_of_injective Subtype.val_injective).mp hstart
      refine Folder.get_above (q := rest) ?_ hget
      rintro rfl
      exact hne (by rw [List.append_nil]; rfl)
  · intro p
    by_cases hp : p = []
    · subst hp
      rw [Folder.get_nil]
      exact ⟨by rintro ⟨⟩, by rintro ⟨⟩⟩
    · exact ⟨fun hget => hlisted hp hget, fun hget => hlisted hp hget⟩

end WalletWall.CircuitInstall
