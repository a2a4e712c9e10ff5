import DownloadCache.Proofs.FileSystem.Canonical

/-!
# What is met on the way

Steps that lead somewhere look up one name after the other, and those that are replaced for a link
look up further ones.  `Meets` says which locations are looked up.

On a way that starts at the root, all that lies above what is met is met as well
(`Meets.of_suffix`, `Leads.meets_of_suffix`).

The way is decided by what is met on it.  Where all that is met is as it was, the steps lead where
they led (`Leads.of_agree`) and meet nothing else (`Leads.meets_of_agree`).  Where each of what is
met is either as it was or gone, steps that still lead somewhere have met nothing that is gone
(`Leads.same_of_fewer`).

On the way to a directory by its canonical path nothing is met but the directory and those above it
(`WellFormed.suffix_of_meets_names`).
-/

namespace DownloadCache.FileSystem

set_option autoImplicit false

/-- Whether a location is looked up by steps from another one when so many links may be
replaced. -/
inductive Meets (files : FileSystem) : Nat → Location → List Step → Location → Prop where
  | here (links : Nat) (here : Location) (name : String) (rest : List Step) :
      Meets files links here (.into name :: rest) (name :: here)
  | stay {links : Nat} {here met : Location} {rest : List Step}
      (onward : Meets files links here rest met) : Meets files links here (.stay :: rest) met
  | up {links : Nat} {here met : Location} {rest : List Step}
      (onward : Meets files links here.parent rest met) : Meets files links here (.up :: rest) met
  | into {links : Nat} {here met : Location} {rest : List Step} {name : String} {object : Object}
      (found : files.object? (name :: here) = some object)
      (solid : ∀ target, object.node ≠ .link target)
      (onward : Meets files links (name :: here) rest met) :
      Meets files links here (.into name :: rest) met
  | follow {links : Nat} {here met : Location} {rest : List Step} {name : String} {number : Nat}
      {target : Path} (found : files.object? (name :: here) = some ⟨number, .link target⟩)
      (onward : Meets files links (if target.isAbsolute then [] else here)
        (target.trail.allSteps ++ rest) met) :
      Meets files (links + 1) here (.into name :: rest) met

variable {files later : FileSystem} {links : Nat} {here there : Location} {steps : List Step}

/-- Steps that lead somewhere find something wherever they look. -/
theorem Leads.isSome_of_meets (leads : Leads files links here steps there) {met : Location}
    (meets : Meets files links here steps met) : (files.object? met).isSome := by
  induction leads with
  | done => cases meets
  | stay _ _ ih => cases meets with | stay onward => exact ih onward
  | up _ _ ih => cases meets with | up onward => exact ih onward
  | into _ _ found solid _ ih =>
      cases meets with
      | here =>
          rw [found]
          rfl
      | into _ _ onward => exact ih onward
      | follow link _ =>
          rw [found] at link
          cases link
          exact absurd rfl (solid _)
  | follow _ _ found _ ih =>
      cases meets with
      | here =>
          rw [found]
          rfl
      | into other solid _ =>
          rw [found] at other
          cases other
          exact absurd rfl (solid _)
      | follow link onward =>
          rw [found] at link
          cases link
          exact ih onward

/-! ## What lies above -/

/-- What a step into a name adds to what is met or lies above the start is that name. -/
theorem meets_or_above_into {name : String} {object : Object} {location : Location}
    (found : files.object? (name :: here) = some object)
    (solid : ∀ target, object.node ≠ .link target)
    (onward : Meets files links (name :: here) steps location ∨ location <:+ name :: here) :
    Meets files links here (.into name :: steps) location ∨ location <:+ here := by
  rcases onward with onward | above
  · exact .inl (.into found solid onward)
  · rcases List.suffix_cons_iff.mp above with rfl | above
    · exact .inl (.here links here name steps)
    · exact .inr above

/-- Following a link adds nothing that lies above the start. -/
theorem meets_or_above_follow {name : String} {number : Nat} {target : Path} {location : Location}
    (found : files.object? (name :: here) = some ⟨number, .link target⟩)
    (onward : Meets files links (if target.isAbsolute then [] else here)
        (target.trail.allSteps ++ steps) location ∨
      location <:+ if target.isAbsolute then [] else here) :
    Meets files (links + 1) here (.into name :: steps) location ∨ location <:+ here := by
  refine onward.imp (.follow found) fun above => ?_
  split at above
  · exact List.suffix_nil.mp above ▸ List.nil_suffix
  · exact above

/-- What lies above something that is met is met itself or lies above the start. -/
theorem Meets.of_suffix {met location : Location} (meets : Meets files links here steps met)
    (within : location <:+ met) : Meets files links here steps location ∨ location <:+ here := by
  induction meets with
  | here links here name rest =>
      rcases List.suffix_cons_iff.mp within with rfl | above
      · exact .inl (.here links here name rest)
      · exact .inr above
  | stay _ ih => exact (ih within).imp_left .stay
  | up _ ih => exact (ih within).imp .up fun above => above.trans (List.tail_suffix _)
  | into found solid _ ih => exact meets_or_above_into found solid (ih within)
  | follow found _ ih => exact meets_or_above_follow found (ih within)

/-- What lies above the place to which steps lead is met or lies above the start. -/
theorem Leads.meets_of_suffix {location : Location} (leads : Leads files links here steps there)
    (within : location <:+ there) : Meets files links here steps location ∨ location <:+ here := by
  induction leads with
  | done => exact .inr within
  | stay _ _ ih => exact (ih within).imp_left .stay
  | up _ _ ih => exact (ih within).imp .up fun above => above.trans (List.tail_suffix _)
  | into _ _ found solid _ ih => exact meets_or_above_into found solid (ih within)
  | follow _ _ found _ ih => exact meets_or_above_follow found (ih within)

/-! ## Where what is met is as it was -/

/-- Steps lead where they led if all that is met is as it was. -/
theorem Leads.of_agree (leads : Leads files links here steps there)
    (agree : ∀ met, Meets files links here steps met → later.object? met = files.object? met)
    (wellFormed : later.WellFormed)
    (start : files.IsDirectory here → later.IsDirectory here) :
    Leads later links here steps there := by
  induction leads with
  | done links here => exact .done links here
  | stay directory _ ih =>
      exact .stay (start directory) (ih (fun met on => agree met on.stay) start)
  | @up _ here _ _ directory _ ih =>
      refine .up (start directory) (ih (fun met on => agree met on.up) fun _ => ?_)
      cases here with
      | nil => exact wellFormed.root
      | cons name above => exact (wellFormed.held (start directory).isSome).1
  | @into _ here _ _ name object directory short found solid _ ih =>
      have same := agree _ (.here _ here name _)
      refine .into (start directory) short (same.trans found) solid (ih ?_ ?_)
      · exact fun met on => agree met (.into found solid on)
      · exact fun directory => directory.of_same same
  | @follow _ here _ _ name _ target directory short found _ ih =>
      have same := agree _ (.here _ here name _)
      refine .follow (start directory) short (same.trans found) (ih ?_ ?_)
      · exact fun met on => agree met (.follow found on)
      · split
        · exact fun _ => wellFormed.root
        · exact start

/-- Where all that was met is as it was, nothing else is met. -/
theorem Leads.meets_of_agree (leads : Leads files links here steps there)
    (agree : ∀ met, Meets files links here steps met → later.object? met = files.object? met)
    {other : Location} (meets : Meets later links here steps other) :
    Meets files links here steps other := by
  induction leads with
  | done => cases meets
  | stay _ _ ih =>
      cases meets with
      | stay onward => exact .stay (ih (fun met on => agree met on.stay) onward)
  | up _ _ ih =>
      cases meets with
      | up onward => exact .up (ih (fun met on => agree met on.up) onward)
  | @into _ here _ _ name object _ _ found solid _ ih =>
      have same := agree _ (.here _ here name _)
      cases meets with
      | here => exact .here _ here name _
      | into _ _ onward =>
          exact .into found solid (ih (fun met on => agree met (.into found solid on)) onward)
      | follow link _ =>
          rw [same, found] at link
          cases link
          exact absurd rfl (solid _)
  | @follow _ here _ _ name _ target _ _ found _ ih =>
      have same := agree _ (.here _ here name _)
      cases meets with
      | here => exact .here _ here name _
      | into other solid _ =>
          rw [same, found] at other
          cases other
          exact absurd rfl (solid _)
      | follow link onward =>
          rw [same, found] at link
          cases link
          exact .follow found (ih (fun met on => agree met (.follow found on)) onward)

/-! ## Where what is met may be gone -/

/-- **Steps that still lead somewhere meet nothing that is gone,** and lead where they led, if each
of what is met is as it was or gone. -/
theorem Leads.same_of_fewer (leads : Leads files links here steps there)
    (fewer : ∀ met, Meets files links here steps met →
      later.object? met = none ∨ later.object? met = files.object? met)
    {other : Location} (leads' : Leads later links here steps other) :
    other = there ∧
      ∀ met, Meets files links here steps met → later.object? met = files.object? met := by
  induction leads with
  | done =>
      cases leads'
      exact ⟨rfl, nofun⟩
  | stay _ _ ih =>
      cases leads' with
      | stay _ onward =>
          obtain ⟨same, kept⟩ := ih (fun met on => fewer met on.stay) onward
          refine ⟨same, fun met meets => ?_⟩
          cases meets with
          | stay on => exact kept met on
  | up _ _ ih =>
      cases leads' with
      | up _ onward =>
          obtain ⟨same, kept⟩ := ih (fun met on => fewer met on.up) onward
          refine ⟨same, fun met meets => ?_⟩
          cases meets with
          | up on => exact kept met on
  | @into _ here _ rest name object _ _ found solid _ ih =>
      have there : ∀ {object'}, later.object? (name :: here) = some object' →
          later.object? (name :: here) = files.object? (name :: here) := fun found' =>
        (fewer _ (.here _ here name rest)).resolve_left (by simp [found'])
      cases leads' with
      | into _ _ found' _ onward =>
          obtain ⟨same, kept⟩ := ih (fun met on => fewer met (.into found solid on)) onward
          refine ⟨same, fun met meets => ?_⟩
          cases meets with
          | here => exact there found'
          | into _ _ on => exact kept met on
          | follow link _ =>
              rw [found] at link
              cases link
              exact absurd rfl (solid _)
      | follow _ _ link _ =>
          rw [there link, found] at link
          cases link
          exact absurd rfl (solid _)
  | @follow _ here _ rest name _ _ _ _ found _ ih =>
      have there : ∀ {object'}, later.object? (name :: here) = some object' →
          later.object? (name :: here) = files.object? (name :: here) := fun found' =>
        (fewer _ (.here _ here name rest)).resolve_left (by simp [found'])
      cases leads' with
      | into _ _ found' solid _ =>
          rw [there found', found] at found'
          cases found'
          exact absurd rfl (solid _)
      | follow _ _ found' onward =>
          have same := there found'
          rw [same, found] at found'
          cases found'
          obtain ⟨lead, kept⟩ := ih (fun met on => fewer met (.follow found on)) onward
          refine ⟨lead, fun met meets => ?_⟩
          cases meets with
          | here => exact same
          | into other solid _ =>
              rw [found] at other
              cases other
              exact absurd rfl (solid _)
          | follow link on =>
              rw [found] at link
              cases link
              exact kept met on

/-! ## Canonical ways -/

/-- The first of the steps into the names of a location is the one into its highest name. -/
theorem exists_of_steps_eq_cons {below : Location} {step : Step} {rest : List Step}
    (whole : Location.steps below = step :: rest) :
    ∃ front name, below = front ++ [name] ∧ step = .into name ∧ rest = Location.steps front := by
  rcases List.eq_nil_or_concat below with rfl | ⟨front, name, rfl⟩
  · cases whole
  · rw [List.concat_eq_append, Location.steps, List.reverse_append] at whole
    cases whole
    exact ⟨front, name, List.concat_eq_append, rfl, rfl⟩

/-- Steps into names meet nothing but what lies above their end, if that is a directory. -/
theorem WellFormed.suffix_of_meets_append (wellFormed : files.WellFormed)
    {below here met : Location} (directory : files.IsDirectory (below ++ here))
    (meets : Meets files links here below.steps met) : met <:+ below ++ here := by
  generalize whole : Location.steps below = steps at meets
  induction meets generalizing below with
  | here links here name rest =>
      obtain ⟨front, first, rfl, same, -⟩ := exists_of_steps_eq_cons whole
      cases same
      exact ⟨front, by simp⟩
  | stay =>
      obtain ⟨_, _, _, same, -⟩ := exists_of_steps_eq_cons whole
      cases same
  | up =>
      obtain ⟨_, _, _, same, -⟩ := exists_of_steps_eq_cons whole
      cases same
  | into _ _ _ ih =>
      obtain ⟨front, first, rfl, same, rest⟩ := exists_of_steps_eq_cons whole
      cases same
      rw [List.append_assoc] at directory ⊢
      exact ih directory rest.symm
  | @follow _ here _ _ name _ target link _ _ =>
      obtain ⟨front, first, rfl, same, -⟩ := exists_of_steps_eq_cons whole
      cases same
      -- What is met is a directory or lies above one, hence no link.
      have within : name :: here <:+ front ++ [name] ++ here := ⟨front, by simp⟩
      obtain ⟨number, found⟩ := wellFormed.isDirectory_of_within directory within
      rw [found] at link
      cases link

/-- **On the way to a directory by the names of its location nothing is met** but the directory and
those above it. -/
theorem WellFormed.suffix_of_meets_names (wellFormed : files.WellFormed) {home met : Location}
    (directory : files.IsDirectory home) (meets : Meets files links [] home.steps met) :
    met <:+ home := by
  rw [← List.append_nil home] at directory ⊢
  exact wellFormed.suffix_of_meets_append directory meets

end DownloadCache.FileSystem
