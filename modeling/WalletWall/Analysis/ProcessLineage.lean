import WalletWall.Library.Descent
import WalletWall.Model.EgressLineage

/-!
# The two replays of the lineage

What the pass of `lineageOf` finds is said here of the events alone: the tool's tree grows from
the tool's own births (`ToolTree`), the proof's root is the number of the first exec of the
measured host in it (`ProofRoot`), and the proof's tree grows from those execs under that number
(`ProofTree`). `Traced` ties the pass to these. The replay puts every exec under the root's number
in place of those of the host, so the two agree exactly when no other exec bears that number
(`replays_agree_iff`).
-/

set_option autoImplicit false

namespace WalletWall.EgressAttribution

open Library

variable (events : List NormEvent) (host : Option HostExecutable)

/-! ## Who descends from what -/

/-- The observer creates the tool. -/
def IsToolBirth (e : NormEvent) (child : ℕ) : Prop :=
  (∃ kthread comm, e.k = .spawn child kthread comm) ∧ some child = toolTgid events ∧
    e.tgid = observerTgid events

/-- The number an event gives to a new process, and whose child that is. The tool is nobody's. -/
def birthOf (e : NormEvent) : Option (ℕ × Option ℕ) :=
  match e.k with
  | .spawn child _ _ =>
      if some child = toolTgid events ∧ e.tgid = observerTgid events then some (child, none)
      else some (child, e.tgid)
  | _ => none

/-- The process under a number descends from the tool, or is it. -/
abbrev ToolTree : List NormEvent → ℕ → Prop :=
  Tree (birthOf events) fun p t => ∃ q e, p = q ++ [e] ∧ IsToolBirth events e t

/-- After `p`, a process of the tool executes exactly the measured host, between HOST_SPAWN and
HOST_EXIT. -/
def HostExec (p : List NormEvent) (e : NormEvent) (tgid : ℕ) : Prop :=
  e.tgid = some tgid ∧ inHostWindow events e.i = true ∧ ToolTree events p tgid ∧
    ∃ h ∈ host, ∃ comm, e.k = .exec h.dev h.ino (some h.path) comm

/-- The number of the process that is the first to execute the host, in a part of the events. -/
abbrev ProofRoot : List NormEvent → ℕ → Prop := First (HostExec events host)

/-- The process under a number descends from one that executed the host under the root's, or is
it. -/
abbrev ProofTree (root : ℕ) : List NormEvent → ℕ → Prop :=
  Tree (birthOf events) fun p t => t = root ∧ ∃ q e, p = q ++ [e] ∧ HostExec events host q e root

/-- An exec, by the process under a number. -/
def IsExecOf (e : NormEvent) (tgid : ℕ) : Prop :=
  e.tgid = some tgid ∧ ∃ dev ino path comm, e.k = .exec dev ino path comm

variable {events host} {p : List NormEvent} {e : NormEvent} {t r : ℕ} {comm : Option Text}

/-- An exec of the host is one process. -/
theorem HostExec.number {q : List NormEvent} {x : NormEvent} {t u : ℕ}
    (h : HostExec events host q x t) (h' : HostExec events host q x u) : t = u :=
  Option.some.inj (h.1.symm.trans h'.1)

/-- There is one proof root at most. -/
theorem ProofRoot.unique {u : ℕ} (h : ProofRoot events host p r) (h' : ProofRoot events host p u) :
    r = u :=
  First.unique (fun _ _ _ _ h h' => h.number h') h h'

/-- A process of the proof has a root before it. -/
theorem ProofTree.root (h : ProofTree events host r p t) : ∃ u, ProofRoot events host p u := by
  obtain ⟨_, _, hq, rfl, q, x, rfl, hx⟩ := h.exists_root
  exact First.exists hq hx

/-! ## One event -/

/-- The last event of a trace is the one that was added. -/
theorem last_of_concat {P : List NormEvent → NormEvent → Prop} :
    (∃ q x, p ++ [e] = q ++ [x] ∧ P q x) ↔ P p e := by
  constructor
  · rintro ⟨q, x, heq, h⟩
    obtain ⟨rfl, hsingle⟩ := List.append_inj' heq rfl
    obtain rfl := List.singleton_inj.mp hsingle
    exact h
  · intro h
    exact ⟨p, e, rfl, h⟩

/-- With one more event a process is in the tool's tree by its birth as the tool, as before, or as
the child of one that is. -/
theorem toolTree_concat : ToolTree events (p ++ [e]) t ↔ IsToolBirth events e t ∨
    ((∀ v, birthOf events e ≠ some (t, v)) ∧ ToolTree events p t) ∨
    ∃ v, birthOf events e = some (t, some v) ∧ ToolTree events p v := by
  unfold ToolTree
  rw [Tree.concat_iff, last_of_concat]

/-- With one more event a process is in the proof's tree by the host's exec, as before, or as the
child of one that is. -/
theorem proofTree_concat : ProofTree events host r (p ++ [e]) t ↔
    (t = r ∧ HostExec events host p e r) ∨
    ((∀ v, birthOf events e ≠ some (t, v)) ∧ ProofTree events host r p t) ∨
    ∃ v, birthOf events e = some (t, some v) ∧ ProofTree events host r p v := by
  unfold ProofTree
  rw [Tree.concat_iff, last_of_concat]

/-- With one more event the proof root is that of before, or the first process to exec the host. -/
theorem proofRoot_concat : ProofRoot events host (p ++ [e]) r ↔ ProofRoot events host p r ∨
    HostExec events host p e r ∧ ∀ u, ¬ ProofRoot events host p u :=
  First.concat_iff

/-- The births of a spawn. -/
theorem birthOf_spawn {child : ℕ} {kthread : Bool} (hk : e.k = .spawn child kthread comm) :
    birthOf events e =
      if some child = toolTgid events ∧ e.tgid = observerTgid events then some (child, none)
      else some (child, e.tgid) := by
  simp only [birthOf, hk]

/-- A spawn is the tool's birth exactly when the observer spawns the tool's process. -/
theorem isToolBirth_spawn {child : ℕ} {kthread : Bool} (hk : e.k = .spawn child kthread comm) :
    IsToolBirth events e t ↔
      t = child ∧ some child = toolTgid events ∧ e.tgid = observerTgid events := by
  simp only [IsToolBirth, hk, Kind.spawn.injEq]
  constructor
  · rintro ⟨⟨_, _, rfl, -, -⟩, htool, hobserver⟩
    exact ⟨rfl, htool, hobserver⟩
  · rintro ⟨rfl, htool, hobserver⟩
    exact ⟨⟨_, _, rfl, rfl, rfl⟩, htool, hobserver⟩

/-- The creation of the tool is a birth. -/
theorem IsToolBirth.birthOf (h : IsToolBirth events e t) :
    EgressAttribution.birthOf events e = some (t, none) := by
  obtain ⟨⟨kthread, comm, hk⟩, hrole⟩ := h
  rw [birthOf_spawn hk, if_pos hrole]

/-- An exec is no birth. -/
theorem HostExec.birthOf (h : HostExec events host p e t) :
    EgressAttribution.birthOf events e = none := by
  obtain ⟨-, -, -, host, -, comm, hk⟩ := h
  simp only [EgressAttribution.birthOf, hk]

/-! ## One event of the pass -/

/-- The walk over a trace with one more event is the walk before, and one step. -/
theorem walk_concat : walk events host (p ++ [e]) = walkEvent events host (walk events host p) e := by
  simp [walk]

variable (events host) in
/-- What the pass knows after a part of the events: the root of the proof, its tree, and the
tool's with it. -/
structure Traced (p : List NormEvent) (w : Walk) : Prop where
  root : ∀ r, w.proofRoot = some r ↔ ProofRoot events host p r
  proof : ∀ t, w.scopeOf t = some .PROOF ↔ ∃ r, w.proofRoot = some r ∧ ProofTree events host r p t
  tool : ∀ t, w.scopeOf t = some .TOOL ∨ w.scopeOf t = some .PROOF ↔ ToolTree events p t

variable {w w' : Walk}

/-- The walk knows no proof root exactly when there is none. -/
theorem Traced.no_root (h : Traced events host p w) :
    (∀ u, ¬ ProofRoot events host p u) ↔ w.proofRoot = none := by
  rw [Option.eq_none_iff_forall_ne_some]
  exact forall_congr' fun u => not_congr (h.root u).symm

/-- An event that is no birth, by what it does to the root and to the scopes. -/
theorem Traced.settle (h : Traced events host p w) (hbirth : birthOf events e = none)
    (hroot : ∀ r, w'.proofRoot = some r ↔
      w.proofRoot = some r ∨ HostExec events host p e r ∧ w.proofRoot = none)
    (hproof : ∀ t, w'.scopeOf t = some .PROOF ↔ w.scopeOf t = some .PROOF ∨
      w'.proofRoot = some t ∧ HostExec events host p e t)
    (htool : ∀ t, w'.scopeOf t = some .TOOL ∨ w'.scopeOf t = some .PROOF ↔
      w.scopeOf t = some .TOOL ∨ w.scopeOf t = some .PROOF) :
    Traced events host (p ++ [e]) w' where
  root r := by rw [hroot, proofRoot_concat, h.no_root, h.root]
  proof t := by
    have htree : ∀ r, ProofTree events host r (p ++ [e]) t ↔
        t = r ∧ HostExec events host p e r ∨ ProofTree events host r p t := by
      intro r
      simp [proofTree_concat, hbirth]
    constructor
    · intro ht
      rcases (hproof t).mp ht with ht | ⟨hr, hx⟩
      · obtain ⟨r, hr, hin⟩ := (h.proof t).mp ht
        exact ⟨r, (hroot r).mpr (.inl hr), (htree r).mpr (.inr hin)⟩
      · exact ⟨t, hr, (htree t).mpr (.inl ⟨rfl, hx⟩)⟩
    · rintro ⟨r, hr, hin⟩
      rcases (htree r).mp hin with ⟨rfl, hx⟩ | hin
      · exact (hproof t).mpr (.inr ⟨hr, hx⟩)
      · obtain ⟨u, hu⟩ := hin.root
        have hwas := (h.root u).mpr hu
        obtain rfl : u = r := Option.some.inj (((hroot u).mpr (.inl hwas)).symm.trans hr)
        exact (hproof t).mpr (.inl ((h.proof t).mpr ⟨u, hwas, hin⟩))
  tool t := by
    have hnot : ¬ IsToolBirth events e t := by
      intro hb
      rw [hb.birthOf] at hbirth
      cases hbirth
    rw [htool, h.tool, toolTree_concat]
    simp [hbirth, hnot]

/-- A spawn. -/
theorem Traced.spawn {child : ℕ} {kthread : Bool} (h : Traced events host p w)
    (hk : e.k = .spawn child kthread comm) :
    Traced events host (p ++ [e]) { w with
      scopeOf := spawnScopes (observerTgid events) (toolTgid events) e.tgid child w.scopeOf } := by
  have hexec : ∀ t, ¬ HostExec events host p e t := by
    intro t hx
    have hnone := hx.birthOf
    rw [birthOf_spawn hk] at hnone
    split at hnone <;> cases hnone
  have hroot : ∀ r, ProofRoot events host (p ++ [e]) r ↔ ProofRoot events host p r := by
    intro r
    simp [proofRoot_concat, hexec]
  by_cases hrole : some child = toolTgid events ∧ e.tgid = observerTgid events
  · have hb : birthOf events e = some (child, none) := by rw [birthOf_spawn hk, if_pos hrole]
    have hscopes : spawnScopes (observerTgid events) (toolTgid events) e.tgid child w.scopeOf =
        Function.update w.scopeOf child (some .TOOL) := if_pos hrole
    rw [hscopes]
    refine ⟨fun r => (h.root r).trans (hroot r).symm, fun t => ?_, fun t => ?_⟩
    · by_cases ht : t = child
      · simp [proofTree_concat, hexec, hb, ht]
      · simpa [proofTree_concat, hexec, hb, ht, Ne.symm ht] using h.proof t
    · rw [toolTree_concat, isToolBirth_spawn hk]
      by_cases ht : t = child
      · simp [hrole, ht]
      · simpa [hb, ht, Ne.symm ht] using h.tool t
  · have hb : birthOf events e = some (child, e.tgid) := by rw [birthOf_spawn hk, if_neg hrole]
    have hscopes : spawnScopes (observerTgid events) (toolTgid events) e.tgid child w.scopeOf =
        Function.update w.scopeOf child (e.tgid.bind w.scopeOf) := if_neg hrole
    rw [hscopes]
    refine ⟨fun r => (h.root r).trans (hroot r).symm, fun t => ?_, fun t => ?_⟩
    · by_cases ht : t = child
      · subst ht
        cases hparent : e.tgid with
        | none => simp [proofTree_concat, hexec, hb, hparent]
        | some parent => simpa [proofTree_concat, hexec, hb, hparent] using h.proof parent
      · simpa [proofTree_concat, hexec, hb, ht, Ne.symm ht] using h.proof t
    · rw [toolTree_concat, isToolBirth_spawn hk]
      by_cases ht : t = child
      · subst ht
        have hbirth : ∀ v, birthOf events e = some (t, some v) ↔ e.tgid = some v := by
          intro v
          rw [hb, Option.some.injEq, Prod.mk.injEq, eq_self, true_and]
        have hborn : ¬ ∀ v, birthOf events e ≠ some (t, v) := fun hall => hall _ hb
        simp only [hrole, and_false, hborn, false_and, false_or, hbirth, Function.update_self,
          Option.bind_eq_some_iff, ← h.tool]
        constructor
        · rintro (⟨v, hv, hs⟩ | ⟨v, hv, hs⟩)
          · exact ⟨v, hv, .inl hs⟩
          · exact ⟨v, hv, .inr hs⟩
        · rintro ⟨v, hv, hs | hs⟩
          · exact .inl ⟨v, hv, hs⟩
          · exact .inr ⟨v, hv, hs⟩
      · simpa [hb, ht, Ne.symm ht] using h.tool t

/-- An event the pass does not act on, and that is no exec of the host by a process outside the
proof. -/
theorem Traced.idle (h : Traced events host p w) (hbirth : birthOf events e = none)
    (hexec : ∀ t, HostExec events host p e t → w.scopeOf t = some .PROOF) :
    Traced events host (p ++ [e]) w := by
  have hroot : ∀ t, w.scopeOf t = some .PROOF → w.proofRoot ≠ none := by
    intro t ht hnone
    obtain ⟨r, hr, -⟩ := (h.proof t).mp ht
    rw [hnone] at hr
    cases hr
  refine h.settle hbirth (fun r => ?_) (fun t => ?_) fun t => Iff.rfl
  · rw [or_iff_left_of_imp]
    rintro ⟨hx, hnone⟩
    exact absurd hnone (hroot r (hexec r hx))
  · rw [or_iff_left_of_imp]
    rintro ⟨-, hx⟩
    exact hexec t hx

/-- An exec of the host's file by a process of the tool that is not yet the proof's. -/
theorem Traced.hostExec {h : HostExecutable} {path comm : Option Text} {tgid : ℕ}
    (ht : Traced events (some h) p w) (hk : e.k = .exec h.dev h.ino path comm)
    (htgid : e.tgid = some tgid) (hwindow : inHostWindow events e.i = true)
    (htool : w.scopeOf tgid = some .TOOL) :
    Traced events (some h) (p ++ [e]) (EgressAttribution.hostExec h path tgid w) := by
  have hbirth : birthOf events e = none := by simp only [birthOf, hk]
  have hexec : ∀ t, HostExec events (some h) p e t ↔ t = tgid ∧ path = some h.path := by
    intro t
    constructor
    · rintro ⟨ht', -, -, h', hh, comm', hk'⟩
      cases hh
      rw [hk] at hk'
      cases hk'
      exact ⟨Option.some.inj (ht'.symm.trans htgid), rfl⟩
    · rintro ⟨rfl, rfl⟩
      exact ⟨htgid, hwindow, (ht.tool t).mp (.inl htool), h, rfl, comm, hk⟩
  unfold EgressAttribution.hostExec
  split
  · next hother =>
      -- the root is another number: its trees do not change
      refine ht.settle hbirth (fun r => ?_) (fun t => ?_) fun t => Iff.rfl
      · simp [hother.1]
      · rw [or_iff_left_of_imp]
        rintro ⟨hr, hx⟩
        obtain ⟨rfl, -⟩ := (hexec t).mp hx
        exact absurd hr hother.2
  · next hroot =>
      split
      · next hpath =>
          refine ht.settle hbirth (fun r => ?_) (fun t => ?_) fun t => Iff.rfl
          · simp [hexec, hpath]
          · simp [hexec, hpath]
      · next hpath =>
          simp only [ne_eq, not_not] at hpath
          have hwas : ∀ r, w.proofRoot = some r → r = tgid := by
            intro r hr
            by_contra hne
            exact hroot ⟨by simp [hr], by simp [hr, hne]⟩
          refine ht.settle hbirth (fun r => ?_) (fun t => ?_) fun t => ?_
          · simp only [hexec, hpath, and_true, Option.some.injEq]
            cases hr : w.proofRoot with
            | none => simp [eq_comm]
            | some r' => simp [hwas r' hr, eq_comm]
          · by_cases heq : t = tgid
            · simp [hexec, hpath, heq]
            · simp [hexec, heq]
          · by_cases heq : t = tgid
            · simp [heq, htool]
            · simp [Function.update_of_ne heq]

/-- **One event of the pass.** -/
theorem Traced.event (h : Traced events host p w) (e : NormEvent) :
    Traced events host (p ++ [e]) (walkEvent events host w e) := by
  unfold walkEvent
  split
  · next child kthread comm hk => exact h.spawn hk
  · next dev ino path comm host tgid hk htgid =>
      split
      · next hmatch =>
          obtain ⟨rfl, rfl, hwindow, htool⟩ := hmatch
          exact h.hostExec hk htgid hwindow htool
      · next hmatch =>
          refine h.idle (by simp only [birthOf, hk]) fun t hx => ?_
          obtain ⟨ht, hwindow, htree, h', hh, comm', hk'⟩ := hx
          cases hh
          rw [hk] at hk'
          cases hk'
          obtain rfl : t = tgid := Option.some.inj (ht.symm.trans htgid)
          rcases (h.tool t).mpr htree with htool | hproof
          · exact absurd ⟨rfl, rfl, hwindow, htool⟩ hmatch
          · exact hproof
  · next hspawn hexec =>
      refine h.idle ?_ fun t hx => ?_
      · unfold birthOf
        split
        · next child kthread comm hk => exact absurd hk (hspawn child kthread comm)
        · rfl
      · obtain ⟨ht, -, -, h', hh, comm, hk⟩ := hx
        exact absurd ht (hexec _ _ _ _ _ _ hk hh)

/-- **The pass knows the lineage**, after any part of the events. -/
theorem walk_traced (events : List NormEvent) (host : Option HostExecutable)
    (p : List NormEvent) : Traced events host p (walk events host p) := by
  induction p using List.reverseRecOn with
  | nil =>
      have hstart : ∀ t, startScopes events t = none ∨ startScopes events t = some .OBSERVER := by
        intro t
        unfold startScopes
        cases observerTgid events with
        | none => exact .inl rfl
        | some observer =>
            by_cases ht : t = observer
            · simp [ht]
            · simp [Function.update_of_ne ht]
      refine ⟨fun r => ?_, fun t => ?_, fun t => ?_⟩
      · simp [walk, ProofRoot, First]
      · rcases hstart t with h | h <;> simp [walk, h]
      · rw [ToolTree, Tree.nil_iff]
        rcases hstart t with h | h <;> simp [walk, h]
  | append_singleton p e ih =>
      rw [walk_concat]
      exact ih.event e

/-! ## The replay -/

/-- Every exec under the number of the proof's root is one by the proof: the first of them is the
measured host's, and nobody else who bears the number, before or after, executes anything. -/
def ProofExecsAlone (events : List NormEvent) (host : Option HostExecutable) : Prop :=
  ∀ r, ProofRoot events host events r → ∀ p e, p ++ [e] <+: events → IsExecOf e r →
    ProofTree events host r (p ++ [e]) r

/-- The replay agrees with the pass after every part of the events. -/
structure ReplaysAgree (events : List NormEvent) (hostNetns : ℕ) (host : Option HostExecutable) :
    Prop where
  /-- Each thread group is assigned the scope the pass had assigned to it. -/
  assigned : ∀ p, p <+: events → ∀ tgid,
    (lineageOf events hostNetns host).replay p tgid = (walk events host p).scopeOf tgid
  /-- That is the scope it is judged by in the host's namespace. -/
  judged : ∀ p, p <+: events → ∀ tgid, tgid ≠ 0 →
    (lineageOf events hostNetns host).scope ((lineageOf events hostNetns host).replay p)
      (some tgid) (some hostNetns) = ((walk events host p).scopeOf tgid).getD .OTHER
  /-- The proof's are its root from its exec of the host on, and who descends from it. -/
  proof : ∀ p, p <+: events → ∀ tgid,
    (lineageOf events hostNetns host).replay p tgid = some .PROOF →
      ∃ r, ProofRoot events host p r ∧ ProofTree events host r p tgid

variable {hostNetns : ℕ}

/-- The replay over a trace with one more event is the replay before, and one step. -/
theorem replay_concat : (lineageOf events hostNetns host).replay (p ++ [e]) =
    (lineageOf events hostNetns host).advance ((lineageOf events hostNetns host).replay p) e := by
  simp [Lineage.replay]

/-- The proof root of the lineage is the proof root of the whole trace. -/
theorem lineageOf_proofRoot : (lineageOf events hostNetns host).proofRoot = some r ↔
    ProofRoot events host events r :=
  (walk_traced events host events).root r

variable (events host w) in
/-- An exec leaves the scopes of the pass, or puts its process among the proof's, as the root. -/
theorem walkEvent_exec {tgid : ℕ} (hexec : IsExecOf e tgid) :
    (walkEvent events host w e).scopeOf = w.scopeOf ∨
      (walkEvent events host w e).scopeOf = Function.update w.scopeOf tgid (some .PROOF) ∧
        (walkEvent events host w e).proofRoot = some tgid := by
  obtain ⟨htgid, dev, ino, path, comm, hk⟩ := hexec
  cases host with
  | none => exact .inl (by simp only [walkEvent, hk])
  | some host =>
      simp only [walkEvent, hk, htgid]
      split
      · unfold hostExec
        split
        · exact .inl rfl
        · split
          · exact .inl rfl
          · exact .inr ⟨rfl, rfl⟩
      · exact .inl rfl

/-- An event that is neither a spawn nor an exec of a thread group changes no scope. -/
theorem walkEvent_other (hspawn : ∀ child kthread comm, e.k ≠ .spawn child kthread comm)
    (hexec : ∀ tgid, ¬ IsExecOf e tgid) : walkEvent events host w e = w := by
  unfold walkEvent
  split
  · next child kthread comm hk => exact absurd hk (hspawn child kthread comm)
  · next dev ino path comm _ tgid hk htgid =>
      exact absurd ⟨htgid, dev, ino, path, comm, hk⟩ (hexec tgid)
  · rfl

/-- One event, while the replay has agreed so far and every exec under the root's number is the
proof's. -/
theorem replay_event (halone : ProofExecsAlone events host) (hp : p ++ [e] <+: events)
    (h : (lineageOf events hostNetns host).replay p = (walk events host p).scopeOf) :
    (lineageOf events hostNetns host).replay (p ++ [e]) = (walk events host (p ++ [e])).scopeOf := by
  have htraced := walk_traced events host (p ++ [e])
  have hroot : ∀ {r}, (walk events host (p ++ [e])).proofRoot = some r →
      (lineageOf events hostNetns host).proofRoot = some r := by
    intro r hr
    exact lineageOf_proofRoot.mpr (((htraced.root r).mp hr).longer hp)
  rw [replay_concat, h]
  by_cases hspawn : ∃ child kthread comm, e.k = .spawn child kthread comm
  · obtain ⟨child, kthread, comm, hk⟩ := hspawn
    rw [walk_concat]
    simp only [Lineage.advance, walkEvent, hk]
    rfl
  by_cases hexec : ∃ tgid, IsExecOf e tgid
  · obtain ⟨tgid, hx⟩ := hexec
    have hwalk := walkEvent_exec events host (walk events host p) hx
    rw [← walk_concat] at hwalk
    obtain ⟨htgid, dev, ino, path, comm, hk⟩ := id hx
    simp only [Lineage.advance, hk, htgid]
    split
    · next hfinal =>
        -- the replay puts the root among the proof's, where it is already or gets now
        have hin : ProofTree events host tgid (p ++ [e]) tgid :=
          halone tgid (lineageOf_proofRoot.mp hfinal.symm) p e hp hx
        have hproof : (walk events host (p ++ [e])).scopeOf tgid = some .PROOF := by
          obtain ⟨r, hr⟩ := hin.root
          have hw := (htraced.root r).mpr hr
          obtain rfl : r = tgid := Option.some.inj ((hroot hw).symm.trans hfinal.symm)
          exact (htraced.proof r).mpr ⟨r, hw, hin⟩
        rcases hwalk with hsame | ⟨hset, -⟩
        · rw [hsame] at hproof ⊢
          rw [← hproof, Function.update_eq_self]
        · exact hset.symm
    · next hfinal =>
        rcases hwalk with hsame | ⟨-, hr⟩
        · exact hsame.symm
        · exact absurd (hroot hr).symm hfinal
  · have hspawn' : ∀ child kthread comm, e.k ≠ .spawn child kthread comm :=
      fun child kthread comm hk => hspawn ⟨child, kthread, comm, hk⟩
    rw [walk_concat, walkEvent_other hspawn' fun tgid hx => hexec ⟨tgid, hx⟩]
    unfold Lineage.advance
    split
    · next child kthread comm hk => exact absurd hk (hspawn' child kthread comm)
    · next dev ino path comm hk =>
        cases htgid : e.tgid with
        | none => rfl
        | some tgid => exact absurd ⟨tgid, htgid, dev, ino, path, comm, hk⟩ hexec
    · rfl

/-- **The replays agree exactly when the proof executes alone under its number.** -/
theorem replays_agree_iff (events : List NormEvent) (hostNetns : ℕ)
    (host : Option HostExecutable) :
    ReplaysAgree events hostNetns host ↔ ProofExecsAlone events host := by
  constructor
  · rintro ⟨hassigned, -, -⟩ r hr p e hp hx
    have hfinal : (lineageOf events hostNetns host).proofRoot = some r :=
      lineageOf_proofRoot.mpr hr
    have hreplay : (lineageOf events hostNetns host).replay (p ++ [e]) r = some .PROOF := by
      obtain ⟨htgid, dev, ino, path, comm, hk⟩ := hx
      rw [replay_concat]
      simp [Lineage.advance, hk, htgid, hfinal]
    have htraced := walk_traced events host (p ++ [e])
    rw [hassigned _ hp] at hreplay
    obtain ⟨r', hr', hin⟩ := (htraced.proof r).mp hreplay
    obtain rfl : r' = r := ProofRoot.unique (((htraced.root r').mp hr').longer hp) hr
    exact hin
  · intro halone
    have hassigned : ∀ p, p <+: events →
        (lineageOf events hostNetns host).replay p = (walk events host p).scopeOf := by
      intro p
      induction p using List.reverseRecOn with
      | nil => exact fun _ => rfl
      | append_singleton p e ih =>
          intro hp
          exact replay_event halone hp (ih ((List.prefix_append _ _).trans hp))
    refine ⟨fun p hp tgid => congrFun (hassigned p hp) tgid, fun p hp tgid htgid => ?_,
      fun p hp tgid hproof => ?_⟩
    · rw [hassigned p hp]
      simp [Lineage.scope, lineageOf, htgid]
    · rw [hassigned p hp] at hproof
      obtain ⟨r, hr, hin⟩ := ((walk_traced events host p).proof tgid).mp hproof
      exact ⟨r, ((walk_traced events host p).root r).mp hr, hin⟩

/-! ## A program between the tool and the host -/

/-- A marker of the observer, which is thread group 100. -/
def markEvent (i : ℕ) (words : String) : NormEvent :=
  ⟨i, i, 100, some 100, .marker (js ("SP1OBS 0123456789abcdef " ++ words))⟩

def plainHost : HostExecutable := ⟨js "/srv/host", js "8:1", 7⟩

/-- The tool, 200, starts the host by way of another program. -/
def wrappedExec : List NormEvent :=
  [markEvent 0 "1 READY", ⟨1, 1, 100, some 100, .spawn 200 false none⟩, markEvent 2 "2 SPAWNED",
    markEvent 3 "3 PHASE name=HOST_SPAWN", ⟨4, 4, 200, some 200, .spawn 300 false none⟩,
    ⟨5, 5, 300, some 300, .exec (js "8:1") 8 (some (js "/usr/bin/env")) none⟩]

def wrappedRun : List NormEvent :=
  wrappedExec ++ [⟨6, 6, 300, some 300, .exec (js "8:1") 7 (some (js "/srv/host")) none⟩,
    markEvent 7 "4 PHASE name=HOST_EXIT"]

/-- The other program is the tool's to the pass, and the proof's to the replay. -/
theorem replays_disagree_wrapped :
    (walk wrappedRun (some plainHost) wrappedExec).scopeOf 300 = some .TOOL ∧
      (lineageOf wrappedRun 1 (some plainHost)).replay wrappedExec 300 = some .PROOF ∧
      ¬ ReplaysAgree wrappedRun 1 (some plainHost) := by
  have hwalk : (walk wrappedRun (some plainHost) wrappedExec).scopeOf 300 = some .TOOL := by decide
  have hreplay : (lineageOf wrappedRun 1 (some plainHost)).replay wrappedExec 300 =
      some .PROOF := by decide
  refine ⟨hwalk, hreplay, fun h => ?_⟩
  have hsame := h.assigned wrappedExec (List.prefix_append _ _) 300
  rw [hwalk, hreplay] at hsame
  cases hsame

end WalletWall.EgressAttribution
