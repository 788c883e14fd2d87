import BatchScript.Directory

/-!
# Saving to a directory

A path is looked up through folders only, and a file is never saved over a folder. So saving changes
what stands at one path, and every lookup that had found its goal finds it again.

> `find?_insert`: what stands at any path once bytes are put at one of them;
> `save_eq_ok`: a directory that bytes have been saved to, and what the path of the saving leads to
> there.
-/

namespace BatchScript

namespace Directory

variable {d d' : Directory} {path : Path} {bytes : List UInt8}

/-! ## One path changes -/

/-- A path is looked up in the first entry, and otherwise behind it. -/
theorem lookup_cons_eq_ite (q p : Path) (entry : Entry) (entries : List (Path × Entry)) :
    ((q, entry) :: entries).lookup p = if p = q then some entry else entries.lookup p := by
  rw [List.lookup_cons]
  by_cases h : p = q
  · rw [if_pos h, beq_iff_eq.2 h]
  · rw [if_neg h, beq_false_of_ne h]

/-- The file that is replaced is found with its new bytes, and all other paths as before. -/
theorem lookup_replace (entries : List (Path × Entry)) (path p : Path) (bytes : List UInt8) :
    (entries.map fun e => if e.1 == path then (path, .file bytes) else e).lookup p =
      if p = path ∧ entries.any (·.1 == path) = true then some (.file bytes)
      else entries.lookup p := by
  induction entries with
  | nil => simp
  | cons e entries ih =>
    obtain ⟨q, entry⟩ := e
    rw [List.map_cons, List.any_cons, lookup_cons_eq_ite]
    by_cases hq : q = path
    · subst hq
      rw [beq_self_eq_true, if_pos rfl, lookup_cons_eq_ite, ih]
      by_cases hp : p = q <;> simp [hp]
    · rw [beq_false_of_ne hq, Bool.false_or, if_neg Bool.false_ne_true, lookup_cons_eq_ite, ih]
      by_cases hp : p = q
      · simp [hp, hq]
      · simp [hp]

/-- Bytes put at a path where no folder stands are there, and all else is as before. -/
theorem find?_insert (h : d.find? path ≠ some .folder) (p : Path) :
    (d.insert path bytes).find? p = if p = path then some (.file bytes) else d.find? p := by
  have hnamed : ¬(path.all fun name => name == above || name == root) = true := by
    intro hall
    exact h (by rw [find?, if_pos hall])
  by_cases hall : (p.all fun name => name == above || name == root) = true
  · -- the folders that are always there cannot be replaced
    have hne : p ≠ path := by
      rintro rfl
      exact hnamed hall
    rw [find?, if_pos hall, if_neg hne, find?, if_pos hall]
  · rw [find?, if_neg hall, find?, if_neg hall, insert]
    by_cases hany : d.entries.any (·.1 == path) = true
    · rw [if_pos hany, lookup_replace]
      simp [hany]
    · rw [if_neg hany, List.lookup_append]
      by_cases hp : p = path
      · have hnone : d.entries.lookup path = none := by
          rw [List.lookup_eq_none_iff]
          intro e he
          rw [List.any_eq_true] at hany
          exact bne_iff_ne.2 fun heq => hany ⟨e, he, beq_iff_eq.2 heq.symm⟩
        simp [hp, hnone]
      · simp [hp, lookup_cons_eq_ite]

/-! ## Lookups -/

/-- A lookup that finds its goal finds it wherever the same folders stand. -/
theorem walk_of_folders (h : ∀ p, d.find? p = some .folder → d'.find? p = some .folder)
    {names : List Text} : ∀ {here goal : Path}, d.walk here names = .ok goal →
      d'.walk here names = .ok goal := by
  induction names with
  | nil => exact fun hwalk => hwalk
  | cons name names ih =>
    intro here goal hwalk
    rw [walk] at hwalk ⊢
    cases hfind : d.find? here with
    | none => simp [hfind] at hwalk
    | some entry =>
      cases entry with
      | file bytes => simp [hfind] at hwalk
      | folder =>
        -- the lookup goes on through a folder, which stands there as well
        rw [hfind] at hwalk
        rw [h here hfind]
        dsimp only at hwalk ⊢
        split at hwalk
        · cases hwalk
        · next hname =>
          rw [if_neg hname]
          exact ih hwalk

/-- A path leads to the same place in a directory that has all the folders. -/
theorem resolve_of_folders (h : ∀ p, d.find? p = some .folder → d'.find? p = some .folder)
    {text : Text} {goal : Path} (hresolve : d.resolve text = .ok goal) :
    d'.resolve text = .ok goal := by
  rw [resolve] at hresolve ⊢
  cases hcheck : checkText text with
  | error cause => rw [hcheck] at hresolve; cases hresolve
  | ok _ =>
    rw [hcheck] at hresolve
    exact walk_of_folders h hresolve

/-- A place for a file is found as any other path is. -/
theorem resolve_of_resolveNew {text : Text} {goal : Path} (h : d.resolveNew text = .ok goal) :
    d.resolve text = .ok goal := by
  unfold resolveNew at h
  split at h
  · -- behind a slash no place is ever found
    simp only [bind, Except.bind] at h
    split at h
    · cases h
    · split at h
      · cases h
      · split at h <;> cases h
  · exact h

/-! ## Saving -/

/-- Whether a place for a file is found does not depend on the bytes. -/
theorem save_eq_error {text : Text} {fault : Fault} (h : d.save text bytes = .error fault)
    (bytes' : List UInt8) : d.save text bytes' = .error fault := by
  unfold save at h ⊢
  split at h
  · exact h
  · split at h
    · exact h
    · cases h

/-- What saving does to a directory: the path leads to a place where no folder stands, the bytes are
there afterwards, and all else is as before. The path then leads to the bytes. -/
theorem save_eq_ok {text : Text} (h : d.save text bytes = .ok d') :
    ∃ place, d.resolve text = .ok place ∧
      (∀ p, d'.find? p = if p = place then some (.file bytes) else d.find? p) ∧
      d'.load text = .ok bytes := by
  unfold save at h
  split at h
  · cases h
  · next place hnew =>
    have hresolve := resolve_of_resolveNew hnew
    split at h
    · cases h
    · next hfolder =>
      cases h
      have hfind : ∀ p, (d.insert place bytes).find? p =
          if p = place then some (.file bytes) else d.find? p :=
        find?_insert fun hf => hfolder hf
      -- no folder stands where the file goes, so paths are resolved as before
      have hfolders : ∀ p, d.find? p = some .folder →
          (d.insert place bytes).find? p = some .folder := by
        intro p hp
        have hne : p ≠ place := by
          rintro rfl
          exact hfolder hp
        rw [hfind, if_neg hne, hp]
      refine ⟨place, hresolve, hfind, ?_⟩
      rw [load, resolve_of_folders hfolders hresolve]
      simp only [hfind, if_pos]

end Directory

end BatchScript
