import PluginCompiler.Proofs.Generate.Placement
import PluginCompiler.Proofs.Plan.Order

/-! Outputs written one after another. With different paths of plain names, every one of them finds
at its place what stood there before the first, and what it leaves is there after the last. -/

set_option autoImplicit false

namespace PluginCompiler

open FileTree

namespace Generate

variable {root : Path} {cwd : Place} {p p' p'' : Progress} {o : Output} {os rest : List Output}

/-- What writing outputs one after another did, from what stood there before the first of them. -/
structure Ran (root : Path) (cwd : Place) (os : List Output) (p p' : Progress) : Prop where
  grows : Grows (fun x => ∃ o ∈ os, x = o.place root cwd) p.tree p'.tree
  owned : ∀ o ∈ os, o.Owned root cwd p.tree →
    p'.tree.find? (o.place root cwd) = p.tree.find? (o.place root cwd)
  rendered : ∀ o ∈ os, ¬ o.Owned root cwd p.tree → o.Rendered root cwd p'.tree
  others : ∀ o : Output, Plan.Regular o.path → o.path ∉ os.map Output.path →
    p'.tree.find? (o.place root cwd) = p.tree.find? (o.place root cwd)
  reached : ∀ o ∈ os,
    (root.join o.path).hasNul = false ∧ (root.join o.path).Passable cwd p'.tree
  written : p'.written =
    ((os.filter fun o => ¬ o.Owned root cwd p.tree).map Output.path).reverse ++ p.written
  kept : p'.kept = ((os.filter fun o => o.Owned root cwd p.tree).map Output.path).reverse ++ p.kept

theorem Ran.nil (p : Progress) : Ran root cwd [] p p where
  grows := .refl _ _
  owned := by simp
  rendered := by simp
  others := fun _ _ _ => rfl
  reached := by simp
  written := rfl
  kept := rfl

theorem ran_of_emit (ended : emit root cwd p o = (p', none)) (regular : Plan.Regular o.path)
    (home : ∀ x ∈ root.trail cwd, p.tree.find? x = some .directory)
    (sheltered : o.policy = .once → o.Sheltered root cwd p.tree) : Ran root cwd [o] p p' := by
  have emitted := emit_eq_none ended
  have grows : Grows (fun x => ∃ o' ∈ [o], x = o'.place root cwd) p.tree p'.tree := by
    have step := emit_grows root cwd p o
    rw [ended] at step
    exact step.weaken fun x same => ⟨o, List.mem_singleton_self o, same⟩
  have others : ∀ o' : Output, Plan.Regular o'.path → o'.path ∉ [o].map Output.path →
      p'.tree.find? (o'.place root cwd) = p.tree.find? (o'.place root cwd) := by
    intro o' regular' absent
    refine emitted.find?_of_ne home regular regular' fun same => absent ?_
    simp [same]
  have reached : ∀ o' ∈ [o],
      (root.join o'.path).hasNul = false ∧ (root.join o'.path).Passable cwd p'.tree := by
    simpa using emitted.reached
  rcases emitted.outcome regular sheltered with
    ⟨owned, tree, written, kept⟩ | ⟨free, rendered, written, kept⟩
  · refine ⟨grows, ?_, ?_, others, reached, ?_, ?_⟩
    · simp [tree]
    · simp [owned]
    · simp [owned, written]
    · simp [owned, kept]
  · refine ⟨grows, ?_, ?_, others, reached, ?_, ?_⟩
    · simp [free]
    · simp [rendered]
    · simp [free, written]
    · simp [free, kept]

theorem Ran.append (first : Ran root cwd os p p') (further : Ran root cwd rest p' p'')
    (regular : ∀ o ∈ os ++ rest, Plan.Regular o.path)
    (distinct : ((os ++ rest).map Output.path).Nodup) : Ran root cwd (os ++ rest) p p'' := by
  rw [List.map_append, List.nodup_append] at distinct
  have early : ∀ o ∈ os, o.path ∉ rest.map Output.path := fun o member taken =>
    distinct.2.2 o.path (List.mem_map.mpr ⟨o, member, rfl⟩) o.path taken rfl
  have late : ∀ o ∈ rest, o.path ∉ os.map Output.path := fun o member taken =>
    distinct.2.2 o.path taken o.path (List.mem_map.mpr ⟨o, member, rfl⟩) rfl
  -- What a run meets at its places and what it leaves there is not the other one's affair.
  have met : ∀ o ∈ rest, p'.tree.find? (o.place root cwd) = p.tree.find? (o.place root cwd) :=
    fun o member => first.others o (regular o (List.mem_append_right os member)) (late o member)
  have left : ∀ o ∈ os, p''.tree.find? (o.place root cwd) = p'.tree.find? (o.place root cwd) :=
    fun o member => further.others o (regular o (List.mem_append_left rest member)) (early o member)
  have same : ∀ o ∈ rest, (o.Owned root cwd p'.tree ↔ o.Owned root cwd p.tree) := by
    intro o member
    rw [Output.Owned, Output.Owned, met o member]
  exact {
    grows := by
      refine (first.grows.weaken ?_).trans (further.grows.weaken ?_)
      · rintro x ⟨o, member, here⟩
        exact ⟨o, List.mem_append_left rest member, here⟩
      · rintro x ⟨o, member, here⟩
        exact ⟨o, List.mem_append_right os member, here⟩
    owned := fun o member owned => by
      rcases List.mem_append.mp member with member | member
      · rw [left o member, first.owned o member owned]
      · rw [further.owned o member ((same o member).mpr owned), met o member]
    rendered := fun o member free => by
      rcases List.mem_append.mp member with member | member
      · obtain ⟨content, renders, holds⟩ := first.rendered o member free
        exact ⟨content, renders, (left o member).trans holds⟩
      · exact further.rendered o member fun owned => free ((same o member).mp owned)
    others := fun o plain absent => by
      rw [List.map_append, List.mem_append, not_or] at absent
      rw [further.others o plain absent.2, first.others o plain absent.1]
    reached := fun o member => by
      rcases List.mem_append.mp member with member | member
      · exact (first.reached o member).imp_right (·.grows further.grows)
      · exact further.reached o member
    written := by
      have filtered : (rest.filter fun o => ¬ o.Owned root cwd p'.tree) =
          rest.filter fun o => ¬ o.Owned root cwd p.tree :=
        List.filter_congr fun o member => by simp only [same o member]
      rw [further.written, first.written, filtered]
      simp
    kept := by
      have filtered : (rest.filter fun o => o.Owned root cwd p'.tree) =
          rest.filter fun o => o.Owned root cwd p.tree :=
        List.filter_congr fun o member => by simp only [same o member]
      rw [further.kept, first.kept, filtered]
      simp }

theorem sheltered_of_accompanied {seen : List Output} {t : FileTree}
    (accompanied : Plan.Accompanied seen (o :: rest)) (sheltered : ∀ o ∈ seen, o.Sheltered root cwd t)
    (once : o.policy = .once) : o.Sheltered root cwd t := by
  obtain ⟨o', member, same⟩ := accompanied.1 once
  have beside := sheltered o' member
  rwa [Output.Sheltered, same] at beside

theorem Ran.sheltered {seen : List Output} (ran : Ran root cwd [o] p p') (regular : Plan.Regular o.path)
    (sheltered : ∀ o ∈ seen, o.Sheltered root cwd p.tree) :
    ∀ o' ∈ o :: seen, o'.Sheltered root cwd p'.tree := by
  intro o' member
  rcases List.mem_cons.mp member with rfl | member
  · exact Output.sheltered_of_passable regular (ran.reached o' (List.mem_singleton_self o')).2
  · exact (sheltered o' member).grows ran.grows

/-- A run of accompanied outputs: `seen` are those before it. -/
theorem ran_of_emitAll {seen : List Output} (ended : emitAll root cwd p os = (p', none))
    (regular : ∀ o ∈ os, Plan.Regular o.path) (distinct : (os.map Output.path).Nodup)
    (home : ∀ x ∈ root.trail cwd, p.tree.find? x = some .directory)
    (accompanied : Plan.Accompanied seen os)
    (sheltered : ∀ o ∈ seen, o.Sheltered root cwd p.tree) : Ran root cwd os p p' := by
  -- Each step opens the directory of its output, so that `seen` grows by it.
  induction os generalizing p seen with
  | nil =>
    cases ended
    exact .nil _
  | cons o rest ih =>
    rw [emitAll] at ended
    split at ended
    · cases ended
    · next middle stepped =>
      have here : Plan.Regular o.path := regular o List.mem_cons_self
      have first := ran_of_emit stepped here home (sheltered_of_accompanied accompanied sheltered)
      have further := ih ended (fun o' member => regular o' (List.mem_cons_of_mem o member))
        (List.nodup_cons.mp distinct).2 (fun x member => first.grows.directories x (home x member))
        accompanied.2 (first.sheltered here sheltered)
      exact first.append further regular distinct

end Generate

end PluginCompiler
