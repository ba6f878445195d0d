import WalletWall.Library.Checked

/-!
# Loops over lists that may fail

What is known of a list, and of what was made from it, when a loop over the list came to its end.
-/

set_option autoImplicit false

namespace WalletWall.Library

variable {ε α β : Type} {f : α → Except ε β} {l : List α} {bs : List β}

/-- A loop of checks comes to its end where every check does. -/
theorem forM_eq_ok {f : α → Except ε Unit} :
    l.forM f = .ok () ↔ ∀ a ∈ l, f a = .ok () := by
  induction l with
  | nil =>
      refine ⟨fun _ a ha => ?_, fun _ => rfl⟩
      cases ha
  | cons a l ih =>
      have hcons : (a :: l).forM f = f a >>= fun _ => l.forM f := rfl
      rw [hcons, bind_eq_ok, List.forall_mem_cons]
      constructor
      · rintro ⟨⟨⟩, ha, hl⟩
        exact ⟨ha, ih.mp hl⟩
      · rintro ⟨ha, hl⟩
        exact ⟨(), ha, ih.mpr hl⟩

/-- What a loop makes, element by element. -/
theorem mapM_eq_ok :
    l.mapM f = .ok bs ↔ List.Forall₂ (fun a b => f a = .ok b) l bs := by
  induction l generalizing bs with
  | nil =>
      rw [List.mapM_nil, pure_eq_ok, List.forall₂_nil_left_iff]
      exact eq_comm
  | cons a l ih =>
      simp only [List.mapM_cons, bind_eq_ok, pure_eq_ok, List.forall₂_cons_left_iff, ih]
      constructor
      · rintro ⟨b, hb, bs, hbs, rfl⟩
        exact ⟨b, bs, hb, hbs, rfl⟩
      · rintro ⟨b, bs, hb, hbs, rfl⟩
        exact ⟨b, hb, bs, hbs, rfl⟩

/-- A traversal comes out when it does at every element. -/
theorem mapM_total (h : ∀ a ∈ l, ∃ b, f a = .ok b) :
    ∃ bs, l.mapM f = .ok bs := by
  induction l with
  | nil => exact ⟨[], rfl⟩
  | cons a l ih =>
      obtain ⟨b, hb⟩ := h a (.head _)
      obtain ⟨bs, hbs⟩ := ih fun a' ha' => h a' (.tail _ ha')
      exact ⟨b :: bs, mapM_eq_ok.mpr (.cons hb (mapM_eq_ok.mp hbs))⟩

/-- What a loop made, it made from the list. -/
theorem mapM_section {g : β → α} (hf : ∀ a b, f a = .ok b → g b = a) (h : l.mapM f = .ok bs) :
    bs.map g = l := by
  induction mapM_eq_ok.mp h with
  | nil => rfl
  | cons hhead _ ih => rw [List.map_cons, hf _ _ hhead, ih (mapM_eq_ok.mpr ‹_›)]

/-- The results of a traversal are those of the elements. -/
theorem mem_of_mapM (h : l.mapM f = .ok bs) {b : β} : b ∈ bs ↔ ∃ a ∈ l, f a = .ok b := by
  induction mapM_eq_ok.mp h with
  | nil => simp
  | @cons a b' l bs hhead _ ih =>
      rw [List.mem_cons, ih (mapM_eq_ok.mpr ‹_›), List.exists_mem_cons_iff, hhead,
        Except.ok.injEq, eq_comm]

/-- An element stands beside what was made from it. -/
theorem mem_zip_of_mapM (h : l.mapM f = .ok bs) {a : α} (ha : a ∈ l) :
    ∃ b, (b, a) ∈ bs.zip l ∧ f a = .ok b := by
  induction mapM_eq_ok.mp h with
  | nil => cases ha
  | @cons a' b l bs hhead _ ih =>
      rw [List.zip_cons_cons]
      rcases List.mem_cons.mp ha with rfl | ha
      · exact ⟨b, .head _, hhead⟩
      · obtain ⟨b', hmem, hb'⟩ := ih (mapM_eq_ok.mpr ‹_›) ha
        exact ⟨b', .tail _ hmem, hb'⟩

/-- A result of a traversal that is zipped with its list belongs to the element beside it. -/
theorem of_mem_zip_mapM (h : l.mapM f = .ok bs) {a : α} {b : β} (hmem : (b, a) ∈ bs.zip l) :
    a ∈ l ∧ f a = .ok b := by
  induction mapM_eq_ok.mp h with
  | nil => cases hmem
  | @cons a' b' l bs hhead _ ih =>
      rw [List.zip_cons_cons, List.mem_cons, Prod.mk.injEq] at hmem
      rcases hmem with ⟨rfl, rfl⟩ | hmem
      · exact ⟨.head _, hhead⟩
      · obtain ⟨ha, hb⟩ := ih (mapM_eq_ok.mpr ‹_›) hmem
        exact ⟨.tail _ ha, hb⟩

/-- **An invariant of what a loop has seen and made holds at its end.** -/
theorem foldlM_run {f : β → α → Except ε β} {P : List α → β → Prop}
    (hstep : ∀ seen a b b', P seen b → f b a = .ok b' → P (seen ++ [a]) b') {b b' : β}
    (h : l.foldlM f b = .ok b') {seen : List α} (hstart : P seen b) :
    P (seen ++ l) b' := by
  induction l generalizing b seen with
  | nil =>
      rw [List.foldlM_nil, pure_eq_ok] at h
      rwa [List.append_nil, ← h]
  | cons a l ih =>
      rw [List.foldlM_cons, bind_eq_ok] at h
      obtain ⟨b₁, hb₁, hrest⟩ := h
      have hnext := ih hrest (hstep seen a b b₁ hstart hb₁)
      rwa [List.append_assoc, List.singleton_append] at hnext

end WalletWall.Library
