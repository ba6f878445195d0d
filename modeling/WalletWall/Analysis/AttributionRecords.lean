import Mathlib.Data.List.Sort
import WalletWall.Library.Postings
import WalletWall.Model.EgressAttribution

/-!
# What the pass records of refused packets

The attempts and the judgements are a journal with the lists kept from it: a judgement goes to the
packets or to the responses of the attempt it names. `Judged` is all that judging a packet can do,
in the pass and in the join alike; `drops_cases` says that a refused packet is judged or put off.
`Sound` is what the pass keeps: besides the records, every thread's bottom attempt and every live
session's is one that sends for itself, and each refused packet is judged or put off exactly once.
-/

set_option autoImplicit false

namespace WalletWall.EgressAttribution

open Library

/-! ## Records -/

/-- The list a class of judgement goes to. -/
def Attempt.received (class_ : DropClass) (a : Attempt) : List ℕ :=
  match class_ with
  | .ATTEMPT_PACKET => a.packets
  | .BOUNDARY_RESPONSE => a.responses
  | .KERNEL_RESPONSE | .UNATTRIBUTED => []

/-- A judgement goes to the attempt it names, under its class. -/
def records : Postings Attempt DropJudgement (ℕ × Scope) DropClass ℕ where
  key a := (a.i, a.scope)
  takes a := !a.delegated
  kept := Attempt.received
  goesTo j := j.attempt.map fun n => (j.class_, n)
  value := DropJudgement.i

/-- The judgements and the lists of the attempts agree, and whatever names no attempt says so. -/
structure Recorded (j : Join) : Prop where
  kept : records.Kept j.attempts j.drops
  blank : ∀ d ∈ j.drops, d.attempt = none →
    d.class_ = .KERNEL_RESPONSE ∨ d.class_ = .UNATTRIBUTED

/-- An attempt is given a packet or a response. -/
structure Gives (class_ : DropClass) (i : ℕ) (g : Attempt → Attempt) : Prop where
  place : ∀ a, (g a).i = a.i
  face : ∀ a, records.face (g a) = records.face a
  received : ∀ c a, (g a).received c = a.received c ++ if c = class_ then [i] else []

/-- An attempt that takes a packet is given it. -/
theorem gives_takes (i : ℕ) (p : Packet) : Gives .ATTEMPT_PACKET i (Attempt.takes i p) where
  place _ := rfl
  face _ := rfl
  received := by
    intro c a
    cases c <;> simp [Attempt.received, Attempt.takes]

/-- An attempt is given a packet by adding its number to the packets of the attempt. -/
theorem gives_packet (i : ℕ) :
    Gives .ATTEMPT_PACKET i fun a => { a with packets := a.packets ++ [i] } where
  place _ := rfl
  face _ := rfl
  received := by
    intro c a
    cases c <;> simp [Attempt.received]

/-- An attempt is given a response by adding its number to the responses of the attempt. -/
theorem gives_response (i : ℕ) :
    Gives .BOUNDARY_RESPONSE i fun a => { a with responses := a.responses ++ [i] } where
  place _ := rfl
  face _ := rfl
  received := by
    intro c a
    cases c <;> simp [Attempt.received]

/-- A packet is judged: given to one attempt that sends for itself, or to none. -/
inductive Judged (d : Dropped) (j : Join) : Join → Prop where
  | given {r : ℕ} {a : Attempt} {class_ : DropClass} {g : Attempt → Attempt} (why : String)
      (ha : j.attempts[r]? = some a) (hsends : a.delegated = false) (hg : Gives class_ d.i g) :
      Judged d j ⟨j.attempts.modify r g, j.drops ++ [judge d class_ (some a) why]⟩
  | nobody {class_ : DropClass} (why : String)
      (hc : class_ = .KERNEL_RESPONSE ∨ class_ = .UNATTRIBUTED) :
      Judged d j ⟨j.attempts, j.drops ++ [judge d class_ none why]⟩

variable {d : Dropped} {j j' : Join} {attempts : List Attempt} {r : ℕ}

/-- A judgement is written down where the attempt that it names has it, or names no attempt. -/
theorem Judged.recorded (h : Judged d j j') (hj : Recorded j) : Recorded j' := by
  cases h with
  | given why ha hsends hg =>
    constructor
    · refine hj.kept.post (p := judge d _ _ why) hg.face hg.received ha ?_ rfl
      simp [records, hsends]
    · intro x hx hnone
      obtain hx | hx := List.mem_append.mp hx
      · exact hj.blank x hx hnone
      · rw [List.mem_singleton.mp hx] at hnone
        cases hnone
  | nobody why hc =>
    constructor
    · exact hj.kept.blank rfl
    · intro x hx hnone
      obtain hx | hx := List.mem_append.mp hx
      · exact hj.blank x hx hnone
      · rw [List.mem_singleton.mp hx]
        exact hc

/-- Whatever judging does, the packet has one judgement more. -/
theorem Judged.drops_i (h : Judged d j j') :
    j'.drops.map (·.i) = j.drops.map (·.i) ++ [d.i] := by
  cases h <;> simp [judge]

/-- A judgement neither adds attempts nor changes which events they came from. -/
theorem Judged.attempts_i (h : Judged d j j') :
    j'.attempts.map (·.i) = j.attempts.map (·.i) := by
  cases h with
  | given why ha hsends hg => exact Postings.map_modify hg.place _ _
  | nobody why hc => rfl

/-- A judgement leaves what identifies the attempts. -/
theorem Judged.faces (h : Judged d j j') :
    j'.attempts.map records.face = j.attempts.map records.face := by
  cases h with
  | given why ha hsends hg => exact Postings.map_modify hg.face _ _
  | nobody why hc => rfl

/-! ## Attempts that send for themselves -/

/-- The attempt at a place is not a nested send of the socket around it. -/
def Sends (attempts : List Attempt) (r : ℕ) : Prop :=
  ∃ k, (attempts.map records.face)[r]? = some (k, true)

/-- An attempt sends for itself exactly when there is one at the place and it is not delegated. -/
theorem sends_iff :
    Sends attempts r ↔ ∃ a, attempts[r]? = some a ∧ a.delegated = false := by
  unfold Sends
  rw [List.getElem?_map]
  constructor
  · rintro ⟨k, hk⟩
    obtain ⟨a, ha, hface⟩ := Option.map_eq_some_iff.mp hk
    refine ⟨a, ha, ?_⟩
    have htakes : (!a.delegated) = true := congrArg Prod.snd hface
    simpa using htakes
  · rintro ⟨a, ha, hsends⟩
    refine ⟨(a.i, a.scope), ?_⟩
    rw [ha, Option.map_some]
    simp [records, Postings.face, hsends]

/-- An attempt that sends for itself goes on doing so when others are added behind it. -/
theorem Sends.extend {attempts attempts' : List Attempt} (h : Sends attempts r)
    (hfaces : attempts.map records.face <+: attempts'.map records.face) : Sends attempts' r := by
  obtain ⟨k, hk⟩ := h
  obtain ⟨more, hmore⟩ := hfaces
  refine ⟨k, ?_⟩
  rw [← hmore, List.getElem?_append_left (List.getElem?_eq_some_iff.mp hk).1, hk]

/-! ## The invariant of the pass -/

def isDrop (e : NormEvent) : Bool :=
  match e.k with
  | .drop _ _ _ _ _ _ => true
  | _ => false

/-- What the pass keeps, over the events it has read. -/
structure Sound (part : List NormEvent) (pass : Pass) : Prop where
  recorded : Recorded ⟨pass.attempts, pass.drops⟩
  bottoms : ∀ tid r, (pass.openOn tid).head? = some r → Sends pass.attempts r
  sessions : ∀ sk r, pass.sessions sk = some r → Sends pass.attempts r
  opened : (pass.attempts.map (·.i)).Sublist (part.map (·.i))
  judged : (pass.drops.map (·.i) ++ pass.deferred.map (·.i)).Perm ((part.filter isDrop).map (·.i))

variable {node : Node} {ctx : AttributionContext} {s : Setting} {part : List NormEvent}
  {pass pass' : Pass} {e : NormEvent}

/-- The pass starts with no attempts and no judgements, about no events. -/
theorem sound_start (scopeOf : ℕ → Option Scope) :
    Sound [] ⟨scopeOf, [], fun _ => [], fun _ => none, fun _ => none, [], [], [], []⟩ where
  recorded := ⟨Postings.Kept.nil, by simp⟩
  bottoms := by simp
  sessions := by simp
  opened := List.Sublist.refl _
  judged := List.Perm.refl _

/-- The invariant reads neither the scopes, the states of the connections, the leaks nor the
refusals. -/
theorem Sound.of_eq (h : Sound part pass) (hattempts : pass'.attempts = pass.attempts)
    (hdrops : pass'.drops = pass.drops) (hdeferred : pass'.deferred = pass.deferred)
    (hopen : pass'.openOn = pass.openOn) (hsessions : pass'.sessions = pass.sessions) :
    Sound part pass' where
  recorded := by
    rw [hattempts, hdrops]
    exact h.recorded
  bottoms := by
    rw [hattempts, hopen]
    exact h.bottoms
  sessions := by
    rw [hattempts, hsessions]
    exact h.sessions
  opened := by
    rw [hattempts]
    exact h.opened
  judged := by
    rw [hdrops, hdeferred]
    exact h.judged

/-- An event that is no refused packet leaves nothing to judge. -/
theorem Sound.quiet (h : Sound part pass) (he : isDrop e = false) : Sound (part ++ [e]) pass where
  recorded := h.recorded
  bottoms := h.bottoms
  sessions := h.sessions
  opened := by
    rw [List.map_append]
    exact h.opened.trans (List.sublist_append_left _ _)
  judged := by
    rw [List.filter_append, List.filter_singleton, he]
    simpa using h.judged

/-- The attempts are revised, but for what the records and the references read of them. -/
theorem Sound.revise (h : Sound part pass) {g : Attempt → Attempt} (hi : ∀ a, (g a).i = a.i)
    (hreading : ∀ a, records.reading (g a) = records.reading a) :
    Sound part { pass with attempts := pass.attempts.modify r g } := by
  have hface : ∀ a, records.face (g a) = records.face a := fun a => congrArg Prod.fst (hreading a)
  have hfaces : pass.attempts.map records.face <+:
      (pass.attempts.modify r g).map records.face := by rw [Postings.map_modify hface]
  exact
    { recorded :=
        ⟨h.recorded.kept.revise (Postings.map_modify hreading _ _), h.recorded.blank⟩
      bottoms := fun tid k hk => (h.bottoms tid k hk).extend hfaces
      sessions := fun sk k hk => (h.sessions sk k hk).extend hfaces
      opened := by
        show ((pass.attempts.modify r g).map _).Sublist _
        rw [Postings.map_modify hi]
        exact h.opened
      judged := h.judged }

/-! ## Entries -/

/-- An event that opens an attempt keeps the pass sound: its number is new, and it is no packet. -/
theorem opens_sound {probe : Probe} {comm sk : Text} {netns : ℕ} {dest : Option Destination}
    {len : Option ℕ} (h : Sound part pass) (hnew : e.i ∉ part.map (·.i))
    (he : isDrop e = false) :
    Sound (part ++ [e]) (opens node ctx s e probe comm sk netns dest len pass) := by
  have hnil : ∀ c : DropClass, (match c with
      | .ATTEMPT_PACKET => ([] : List ℕ)
      | .BOUNDARY_RESPONSE => []
      | .KERNEL_RESPONSE | .UNATTRIBUTED => []) = [] := by
    intro c
    cases c <;> rfl
  have hstart : ∀ a, pass.attempts.map records.face <+:
      (pass.attempts ++ [a]).map records.face := by
    intro a
    rw [List.map_append]
    exact List.prefix_append _ _
  unfold opens
  dsimp only
  constructor
  · constructor
    · refine h.recorded.kept.open_ ?_ hnil
      intro hmem
      obtain ⟨a, ha, hkey⟩ := List.mem_map.mp hmem
      have hi : a.i = e.i := congrArg Prod.fst hkey
      exact hnew (h.opened.subset (hi ▸ List.mem_map_of_mem ha))
    · exact h.recorded.blank
  · intro tid r hr
    dsimp only at hr
    by_cases htid : tid = e.tid
    · subst htid
      rw [Function.update_self] at hr
      cases hstack : pass.openOn e.tid with
      | nil =>
        rw [hstack, List.nil_append, List.head?_cons, Option.some.injEq] at hr
        subst hr
        exact sends_iff.mpr ⟨_, List.getElem?_concat_length, rfl⟩
      | cons bottom stack =>
        rw [hstack, List.cons_append, List.head?_cons] at hr
        refine (h.bottoms e.tid r ?_).extend (hstart _)
        rw [hstack, List.head?_cons, hr]
    · rw [Function.update_of_ne htid] at hr
      exact (h.bottoms tid r hr).extend (hstart _)
  · intro sk r hr
    exact (h.sessions sk r hr).extend (hstart _)
  · rw [List.map_append, List.map_append]
    exact h.opened.append (List.Sublist.refl _)
  · exact (h.quiet he).judged

/-! ## Returns and states -/

/-- Replacing an attempt by what a function makes of it is modifying it by that function. -/
theorem set_eq_modify {a : Attempt} {g : Attempt → Attempt} (ha : attempts[r]? = some a) :
    attempts.set r (g a) = attempts.modify r g := by
  have : Inhabited Attempt := ⟨a⟩
  rw [List.modify_eq_set, ha, Option.getD_some]

/-- The last attempt of a thread's stack is taken off. -/
theorem Sound.pop (h : Sound part pass) (tid : ℕ) :
    Sound part { pass with
      openOn := Function.update pass.openOn tid (pass.openOn tid).dropLast } := by
  refine ⟨h.recorded, ?_, h.sessions, h.opened, h.judged⟩
  intro tid' r hr
  dsimp only at hr
  by_cases htid : tid' = tid
  · subst htid
    rw [Function.update_self] at hr
    apply h.bottoms tid' r
    match hstack : pass.openOn tid' with
    | [] | [_] => simp [hstack] at hr
    | _ :: _ :: _ => simpa [hstack] using hr
  · rw [Function.update_of_ne htid] at hr
    exact h.bottoms tid' r hr

/-- A session begins, of an attempt that sends for itself, or ends. -/
theorem Sound.session (h : Sound part pass) (sk : Text) (r : Option ℕ)
    (hr : ∀ k, r = some k → Sends pass.attempts k) :
    Sound part { pass with sessions := Function.update pass.sessions sk r } := by
  refine ⟨h.recorded, h.bottoms, ?_, h.opened, h.judged⟩
  intro sk' k hk
  dsimp only at hk
  by_cases hsk : sk' = sk
  · subst hsk
    rw [Function.update_self] at hk
    exact hr k hk
  · rw [Function.update_of_ne hsk] at hk
    exact h.sessions sk' k hk

/-- An attempt whose call has returned. -/
def Attempt.returned (ret : ℤ) (sport : Option ℕ) (a : Attempt) : Attempt :=
  { a with ret := some ret, sport := sport }

/-- The return of a call keeps the pass sound: it changes an attempt, not what identifies it. -/
theorem returns_sound {probe : Probe} {sk : Text} {ret : ℤ} {sport : Option ℕ}
    (h : Sound part pass) : Sound part (returns e probe sk ret sport pass) := by
  unfold returns
  dsimp only
  split
  · rename_i r top hlast
    obtain ⟨r', -, hr⟩ := Option.bind_eq_some_iff.mp hlast
    obtain ⟨a, ha, hra⟩ := Option.map_eq_some_iff.mp hr
    obtain ⟨rfl, rfl⟩ := Prod.mk.inj hra
    have hset : pass.attempts.set r' { a with ret := some ret, sport := sport } =
        pass.attempts.modify r' (Attempt.returned ret sport) :=
      set_eq_modify (g := Attempt.returned ret sport) ha
    have hpopped := (h.pop e.tid).revise (r := r') (g := Attempt.returned ret sport)
      (fun _ => rfl) (fun _ => rfl)
    rw [hset]
    split_ifs with hsame hsession
    · refine (hpopped.session sk (some r') ?_).of_eq rfl rfl rfl rfl rfl
      intro k hk
      obtain rfl := Option.some.inj hk
      refine sends_iff.mpr ⟨Attempt.returned ret sport a, ?_, hsession.2.2⟩
      rw [List.getElem?_modify_eq, ha]
      rfl
    · exact hpopped
    · exact h.of_eq rfl rfl rfl rfl rfl
  · exact h.of_eq rfl rfl rfl rfl rfl

/-- A change of a socket's state keeps the pass sound. -/
theorem changes_sound {sk : Text} {old new : ℕ} (h : Sound part pass) :
    Sound part (changes e sk old new pass) := by
  unfold changes
  split
  · exact h
  · dsimp only
    split_ifs
    all_goals first
      | exact h.of_eq rfl rfl rfl rfl rfl
      | exact (h.session sk none (by simp)).of_eq rfl rfl rfl rfl rfl

/-! ## Refused packets -/

/-- The attempt that owns a packet is one that sends for itself. -/
theorem ownerOf_sends {stack : List ℕ} {sk : Text} (h : ownerOf stack sk attempts = some r) :
    ∃ a, attempts[r]? = some a ∧ a.delegated = false := by
  have hfound := List.find?_some h
  obtain ⟨a, ha, hown⟩ := (Option.any_eq_true _ _).mp hfound
  rw [Bool.and_eq_true, Bool.not_eq_true'] at hown
  exact ⟨a, ha, hown.2⟩

variable (node ctx s e) in
/-- A refused packet is put off or judged. -/
theorem drops_cases (h : Sound part pass) (dctx : Ctx) (sk : Text) (packet : Packet) :
    drops node ctx s e dctx sk packet pass =
        { pass with deferred := pass.deferred ++ [⟨e.i, e.t, packet⟩] } ∨
      ∃ j, Judged ⟨e.i, e.t, packet⟩ ⟨pass.attempts, pass.drops⟩ j ∧
        drops node ctx s e dctx sk packet pass =
          { pass with attempts := j.attempts, drops := j.drops } := by
  unfold drops
  dsimp only
  split
  · -- within the attempt's own send
    rename_i r howner
    obtain ⟨a, ha, hsends⟩ := ownerOf_sends howner
    rw [ha]
    exact .inr ⟨_, .given _ ha hsends (gives_takes e.i packet), rfl⟩
  split
  · -- an answer to the bottom attempt
    rename_i r hbottom
    have hhead : (pass.openOn e.tid).head? = some r := by
      split_ifs at hbottom
      · exact hbottom
      · cases hbottom
    obtain ⟨a, ha, hsends⟩ := sends_iff.mp (h.bottoms e.tid r hhead)
    rw [ha]
    exact .inr ⟨_, .given _ ha hsends (gives_response e.i), rfl⟩
  split
  · -- by its socket
    rename_i r hsession
    split_ifs at hsession
    obtain ⟨a, ha, hsends⟩ := sends_iff.mp (h.sessions sk r hsession)
    rw [ha]
    exact .inr ⟨_, .given _ ha hsends (gives_packet e.i), rfl⟩
  split_ifs
  · exact .inl rfl
  · exact .inr ⟨_, .nobody _ (.inl rfl), rfl⟩
  · exact .inr ⟨_, .nobody _ (.inl rfl), rfl⟩
  · exact .inr ⟨_, .nobody _ (.inr rfl), rfl⟩

/-- A dropped packet keeps the pass sound: it is judged, and given to one attempt at most. -/
theorem drops_sound {dctx : Ctx} {sk : Text} {packet : Packet} (h : Sound part pass)
    (he : isDrop e = true) :
    Sound (part ++ [e]) (drops node ctx s e dctx sk packet pass) := by
  have hopened : (pass.attempts.map (·.i)).Sublist ((part ++ [e]).map (·.i)) := by
    rw [List.map_append]
    exact h.opened.trans (List.sublist_append_left _ _)
  have hindices : (((part ++ [e]).filter isDrop).map (·.i)) =
      (part.filter isDrop).map (·.i) ++ [e.i] := by
    rw [List.filter_append, List.filter_singleton, he, List.map_append]
    rfl
  obtain hput | ⟨j, hj, hjudged⟩ := drops_cases node ctx s e h dctx sk packet
  · rw [hput]
    refine ⟨h.recorded, h.bottoms, h.sessions, hopened, ?_⟩
    rw [hindices, List.map_append, ← List.append_assoc]
    exact h.judged.append_right _
  · rw [hjudged]
    have hfaces : pass.attempts.map records.face <+: j.attempts.map records.face := by
      rw [hj.faces]
    refine ⟨hj.recorded h.recorded, fun tid r hr => (h.bottoms tid r hr).extend hfaces,
      fun sk r hr => (h.sessions sk r hr).extend hfaces, ?_, ?_⟩
    · show (j.attempts.map _).Sublist _
      rw [hj.attempts_i]
      exact hopened
    · rw [hindices, hj.drops_i, List.append_assoc]
      refine List.Perm.trans ?_ (h.judged.append_right _)
      rw [List.append_assoc]
      exact List.perm_append_comm.append_left _

/-! ## The pass -/

/-- **Every event keeps the pass sound**, when its number has not occurred before. -/
theorem passEvent_sound (h : Sound part pass) (hnew : e.i ∉ part.map (·.i)) :
    Sound (part ++ [e]) (passEvent node ctx s pass e) := by
  have hscoped : Sound part { pass with scopeOf := s.lineage.advance pass.scopeOf e } :=
    h.of_eq rfl rfl rfl rfl rfl
  rw [passEvent.eq_def]
  dsimp only
  cases hk : e.k with
  | drop =>
    have he : isDrop e = true := by simp [isDrop, hk]
    exact drops_sound hscoped he
  | send | connect =>
    have he : isDrop e = false := by simp [isDrop, hk]
    exact opens_sound hscoped hnew he
  | sendret | connectret =>
    have he : isDrop e = false := by simp [isDrop, hk]
    exact (returns_sound hscoped).quiet he
  | tcpstate =>
    have he : isDrop e = false := by simp [isDrop, hk]
    exact (changes_sound hscoped).quiet he
  | xmit =>
    have he : isDrop e = false := by simp [isDrop, hk]
    unfold transmits
    dsimp only
    split_ifs
    · exact (hscoped.quiet he).of_eq rfl rfl rfl rfl rfl
    · exact hscoped.quiet he
  | marker | spawn | exec | exit | retransmit | xsk =>
    have he : isDrop e = false := by simp [isDrop, hk]
    exact hscoped.quiet he

/-- The pass over any events of distinct indices. -/
theorem passOver_sound (hone : (part.map (·.i)).Nodup) :
    Sound part (passOver node ctx s part) := by
  unfold passOver
  induction part using List.reverseRecOn with
  | nil => exact sound_start _
  | append_singleton part e ih =>
    rw [List.map_append, List.map_singleton, List.nodup_append] at hone
    rw [List.foldl_append, List.foldl_cons, List.foldl_nil]
    apply passEvent_sound (ih hone.1)
    intro hmem
    exact hone.2.2 _ hmem _ (List.mem_singleton_self _) rfl

end WalletWall.EgressAttribution
