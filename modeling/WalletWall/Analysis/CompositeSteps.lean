import WalletWall.Model.CompositePolicyEngine

/-!
# What one call of `CompositePolicyEngine` can do

`Effect` lists the writes the engine's owner can make, each with the guards passed before it, and
`dispatch_effect` says that a successful call makes one of them. The list of modules stays free of
duplicates: swap-and-pop only takes the one entry out (`swapAndPop_perm`).

`LoopRan` is the loop of `check` as a relation, one constructor for each way a turn can end.
-/

set_option autoImplicit false

namespace WalletWall.CompositePolicyEngine

open Library

variable {ctx : Ctx} {s s' : State} {op : Op}

/-- The modifier onlyOwner lets a call through exactly when the engine's owner sends it. -/
theorem onlyOwner_eq_ok {u : Unit} : onlyOwner ctx s = .ok u ↔ ctx.sender = s.owner := by
  simp only [onlyOwner, revertIf_eq_ok, ne_eq, not_not]

/-- A check is let through exactly when its sender is an admission caller and the subject's
consumer. -/
theorem requireAdmissionCaller_eq_ok {sender : Address} {S : PolicySubject} {u : Unit} :
    requireAdmissionCaller sender S s = .ok u ↔
      s.admissionCaller sender = true ∧ S.consumer = sender := by
  simp only [requireAdmissionCaller, bind_eq_ok, revertIf_eq_ok, exists_const, ne_eq, not_not,
    Bool.not_eq_false]

/-! ## The list of modules -/

/-- Swap-and-pop takes out the entry at the index and nothing else. -/
theorem swapAndPop_perm {modules : List Address} {i : ℕ} (hi : i < modules.length) :
    (swapAndPop i modules).Perm (modules.eraseIdx i) := by
  obtain ⟨init, last, rfl⟩ : ∃ init last, modules = init ++ [last] := by
    have hne : modules ≠ [] := List.ne_nil_of_length_pos (Nat.zero_lt_of_lt hi)
    exact ⟨modules.dropLast, modules.getLast hne, (List.dropLast_concat_getLast hne).symm⟩
  rw [List.length_append, List.length_singleton] at hi
  rw [swapAndPop, List.getLastD_concat]
  by_cases hlt : i < init.length
  · rw [List.set_append_left _ _ hlt, List.dropLast_concat,
      List.eraseIdx_append_of_lt_length hlt]
    exact (List.set_perm_cons_eraseIdx hlt last).trans (List.perm_append_singleton _ _).symm
  · have heq : i = init.length := by omega
    subst heq
    simp [List.eraseIdx_append_of_length_le]

/-- Swapping a module with the last one and popping it repeats none. -/
theorem swapAndPop_nodup {modules : List Address} {i : ℕ} (hi : i < modules.length)
    (h : modules.Nodup) : (swapAndPop i modules).Nodup :=
  (swapAndPop_perm hi).nodup_iff.mpr (h.sublist (List.eraseIdx_sublist _ _))

/-! ## Calls -/

/-- A proposed removal whose time has come and has not passed. -/
structure Removable (ctx : Ctx) (s : State) (policy : Address) : Prop where
  proposed : s.pendingModuleRemovalValidAfter policy ≠ 0
  mature : s.pendingModuleRemovalValidAfter policy ≤ ctx.timestamp
  fresh : ctx.timestamp ≤ s.pendingModuleRemovalValidAfter policy + MODULE_REMOVAL_GRACE_PERIOD

/-- The writes of the engine's functions. -/
inductive Effect (ctx : Ctx) (s : State) : Op → State → Prop
  | addModule {policy} (howner : ctx.sender = s.owner) (hzero : policy ≠ 0)
      (hself : policy ≠ ctx.self) (hcode : ctx.hasCode policy = true)
      (hroom : s.modules.length < MAX_MODULES) (hnew : policy ∉ s.modules) :
      Effect ctx s (.addModule policy) { s with modules := s.modules ++ [policy] }
  | proposeRemoveModule {policy} (howner : ctx.sender = s.owner) (hmem : policy ∈ s.modules) :
      Effect ctx s (.proposeRemoveModule policy)
        (s.setRemoval policy (ctx.timestamp + MODULE_REMOVAL_DELAY))
  | applyRemoveModule {policy i} (howner : ctx.sender = s.owner) (hdue : Removable ctx s policy)
      (hi : s.modules[i]? = some policy) :
      Effect ctx s (.applyRemoveModule policy)
        { s.setRemoval policy 0 with modules := swapAndPop i s.modules }
  | cancelRemoveModule {policy} (howner : ctx.sender = s.owner)
      (hproposed : s.pendingModuleRemovalValidAfter policy ≠ 0) :
      Effect ctx s (.cancelRemoveModule policy) (s.setRemoval policy 0)
  | setAdmissionCaller {caller allowed} (howner : ctx.sender = s.owner) (hzero : caller ≠ 0)
      (hself : caller ≠ ctx.self) (hcode : allowed = true → ctx.hasCode caller = true) :
      Effect ctx s (.setAdmissionCaller caller allowed)
        { s with admissionCaller := Function.update s.admissionCaller caller allowed }
  | transferOwnership {newOwner} (howner : ctx.sender = s.owner) :
      Effect ctx s (.transferOwnership newOwner) { s with pendingOwner := newOwner }
  | acceptOwnership (hpending : s.pendingOwner = ctx.sender) :
      Effect ctx s .acceptOwnership { s with pendingOwner := 0, owner := ctx.sender }
  | renounceOwnership (howner : ctx.sender = s.owner) :
      Effect ctx s .renounceOwnership { s with pendingOwner := 0, owner := 0 }

/-- **One call, one effect.** -/
theorem dispatch_effect (h : dispatch ctx op s = .ok s') : Effect ctx s op s' := by
  cases op with
  | addModule policy =>
      simp only [dispatch, addModule, bind_eq_ok, onlyOwner_eq_ok, exists_const, revertIf_eq_ok,
        pure_eq_ok, ge_iff_le, not_le, Bool.not_eq_false] at h
      obtain ⟨howner, hzero, hself, hcode, hroom, hnew, rfl⟩ := h
      exact .addModule howner hzero hself hcode hroom hnew
  | proposeRemoveModule policy =>
      simp only [dispatch, proposeRemoveModule, bind_eq_ok, onlyOwner_eq_ok, exists_const,
        revertIf_eq_ok, not_not, addU_eq_ok, pure_eq_ok] at h
      obtain ⟨howner, hmem, _, ⟨-, rfl⟩, rfl⟩ := h
      exact .proposeRemoveModule howner hmem
  | applyRemoveModule policy =>
      simp only [dispatch, applyRemoveModule, bind_eq_ok, onlyOwner_eq_ok, exists_const,
        revertIf_eq_ok, addU_eq_ok, orRevert_eq_ok, pure_eq_ok, not_lt, gt_iff_lt] at h
      obtain ⟨howner, hproposed, hmature, _, ⟨-, rfl⟩, hfresh, i, hi, rfl⟩ := h
      have hat : s.modules[i]? = some policy := by
        obtain ⟨hlt, heq, -⟩ := List.findIdx?_eq_some_iff_getElem.mp hi
        rw [List.getElem?_eq_getElem hlt, beq_iff_eq.mp heq]
      exact .applyRemoveModule howner ⟨hproposed, hmature, hfresh⟩ hat
  | cancelRemoveModule policy =>
      simp only [dispatch, cancelRemoveModule, bind_eq_ok, onlyOwner_eq_ok, exists_const,
        revertIf_eq_ok, pure_eq_ok] at h
      obtain ⟨howner, hproposed, rfl⟩ := h
      exact .cancelRemoveModule howner hproposed
  | setAdmissionCaller caller allowed =>
      simp only [dispatch, setAdmissionCaller, bind_eq_ok, onlyOwner_eq_ok, exists_const,
        revertIf_eq_ok, pure_eq_ok, not_and, Bool.not_eq_false] at h
      obtain ⟨howner, hzero, hself, hcode, rfl⟩ := h
      exact .setAdmissionCaller howner hzero hself hcode
  | transferOwnership newOwner =>
      simp only [dispatch, transferOwnership, bind_eq_ok, onlyOwner_eq_ok, exists_const,
        pure_eq_ok] at h
      obtain ⟨howner, rfl⟩ := h
      exact .transferOwnership howner
  | acceptOwnership =>
      simp only [dispatch, acceptOwnership, bind_eq_ok, exists_const, revertIf_eq_ok, pure_eq_ok,
        ne_eq, not_not] at h
      obtain ⟨hpending, rfl⟩ := h
      exact .acceptOwnership hpending
  | renounceOwnership =>
      simp only [dispatch, renounceOwnership, bind_eq_ok, onlyOwner_eq_ok, exists_const,
        pure_eq_ok] at h
      obtain ⟨howner, rfl⟩ := h
      exact .renounceOwnership howner

/-- No call puts a module into the list twice. -/
theorem Effect.nodup (h : Effect ctx s op s') (hs : s.modules.Nodup) : s'.modules.Nodup := by
  cases h with
  | addModule howner hzero hself hcode hroom hnew =>
      rw [List.nodup_append_comm, List.singleton_append, List.nodup_cons]
      exact ⟨hnew, hs⟩
  | applyRemoveModule howner hdue hi =>
      exact swapAndPop_nodup (List.getElem?_eq_some_iff.mp hi).1 hs
  | _ => exact hs

/-- The constructor comes out for every sender that is not zero, with no modules and no admission
callers. -/
theorem construct_eq_ok : construct ctx = .ok s ↔
    ctx.sender ≠ 0 ∧ s = ⟨ctx.sender, 0, [], fun _ => false, fun _ => 0⟩ := by
  simp only [construct, bind_eq_ok, revertIf_eq_ok, exists_const, pure_eq_ok]
  exact and_congr_right fun _ => eq_comm

/-! ## The loop of `check` -/

section Loop

variable {W ε : Type}

/-- The loop of `check`, at index `i` with `left` indices to go. -/
inductive LoopRan (modules : W → List Address)
    (ask : Address → W → Option (Except ε (Verdict × W))) :
    ℕ → ℕ → W → Progress → W → Prop
  | ended {i w} : LoopRan modules ask 0 i w (.answered (true, "")) w
  | suspended {left i policy w} (hat : (modules w)[i]? = some policy) (hask : ask policy w = none) :
      LoopRan modules ask (left + 1) i w (.asking i policy) w
  | denied {left i policy why w w'} (hat : (modules w)[i]? = some policy)
      (hask : ask policy w = some (.ok ((false, why), w'))) :
      LoopRan modules ask (left + 1) i w (.answered (false, why)) w'
  | allowed {left i policy why p w w₁ w'} (hat : (modules w)[i]? = some policy)
      (hask : ask policy w = some (.ok ((true, why), w₁)))
      (hrest : LoopRan modules ask left (i + 1) w₁ p w') :
      LoopRan modules ask (left + 1) i w p w'

/-- The loop over the modules asks one after the other, until one of them denies or the list is
through. -/
theorem loop_ran {modules : W → List Address}
    {ask : Address → W → Option (Except ε (Verdict × W))} {panic : ε} {left i : ℕ} {w w' : W}
    {p : Progress} (h : checkLoop modules ask panic left i w = .ok (p, w')) :
    LoopRan modules ask left i w p w' := by
  induction left generalizing i w with
  | zero =>
      cases h
      exact .ended
  | succ left ih =>
      simp only [checkLoop, bind_eq_ok, orRevert_eq_ok] at h
      obtain ⟨policy, hat, h⟩ := h
      split at h
      · next hask =>
          rw [pure_eq_ok] at h
          cases h
          exact .suspended hat hask
      · next answer hask =>
          simp only [bind_eq_ok, Prod.exists] at h
          obtain ⟨allowed, why, w₁, rfl, h⟩ := h
          cases allowed with
          | true => exact .allowed hat hask (ih h)
          | false =>
              simp only [Bool.false_eq_true, if_false, pure_eq_ok] at h
              cases h
              exact .denied hat hask

end Loop

end WalletWall.CompositePolicyEngine
