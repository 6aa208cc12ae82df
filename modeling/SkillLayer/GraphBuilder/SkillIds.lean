import SkillLayer.GraphBuilder.Build

/-! Distinct skill ids: a file gets one row per scope root that reaches it. -/

namespace SkillLayer.GraphBuilder

open Domain

variable {F : Type} (services : BuildServices F)

/-- The inner root lies in the outer one, the walk from the outer root is not pruned
on the way, and there is a skill file to be found. -/
structure Nests (tree : FileTree) (outer inner : Path) : Prop where
  below : outer <+: inner
  kept : namesKept (outer.getLast?.toList ++ inner.drop outer.length) = true
  found : ∃ path, Discovered tree inner path

theorem namesKept_fileName (path : Path) {name : Str} (active : isActiveSkillFile (path ++ [name]) = true) :
    namesKept [name] = true := by
  have other : ∀ ignored ∈ ignoredDirNames,
      Str.toAsciiLowercase ignored ≠ Str.toAsciiLowercase activeSkillFileName := by decide
  have same : Str.toAsciiLowercase name = Str.toAsciiLowercase activeSkillFileName := by
    simpa [isActiveSkillFile, hasLifecycleFileName, Path.fileName] using active
  have absent : name ∉ ignoredDirNames := fun member => other name member same
  simpa [namesKept] using absent

theorem reached_append (root rest : Path) :
    reached root (root ++ rest) = namesKept (root.getLast?.toList ++ rest.dropLast) := by
  unfold reached directoryNames
  rw [List.drop_left, List.isPrefixOf_iff_prefix.mpr (List.prefix_append _ _), Bool.true_and]

theorem reached_of_discovered {tree : FileTree} {root path : Path}
    (found : Discovered tree root path) : ∃ rest, path = root ++ rest ∧ reached root path = true := by
  obtain ⟨⟨content, walked⟩, -, -⟩ := found
  have seen := reached_of_visited (mem_walk.mp walked).2
  obtain ⟨rest, same⟩ := List.isPrefixOf_iff_prefix.mp (Bool.and_eq_true_iff.mp seen).1
  exact ⟨rest, same.symm, seen⟩

theorem discovered_of_reached {tree : FileTree} {root other path : Path}
    (found : Discovered tree other path) (seen : reached root path = true) :
    Discovered tree root path := by
  obtain ⟨⟨content, walked⟩, active, unretired⟩ := found
  exact ⟨⟨content, mem_walk.mpr ⟨(mem_walk.mp walked).1, seen⟩⟩, active, unretired⟩

/-- From an outer root the walk reaches a file of the inner root exactly when it
reaches the inner root. -/
theorem discovered_outer_iff {tree : FileTree} {outer between rest : Path}
    (found : Discovered tree (outer ++ between) (outer ++ between ++ rest)) :
    Discovered tree outer (outer ++ between ++ rest) ↔
      namesKept (outer.getLast?.toList ++ between) = true := by
  have inner : namesKept rest.dropLast = true := by
    obtain ⟨_, _, seen⟩ := reached_of_discovered found
    rw [reached_append, namesKept_append] at seen
    exact (Bool.and_eq_true_iff.mp seen).2
  have seenOuter : reached outer (outer ++ between ++ rest) = true ↔
      namesKept (outer.getLast?.toList ++ between) = true := by
    rw [List.append_assoc, reached_append, namesKept_append, namesKept_append]
    rcases List.eq_nil_or_concat rest with rfl | ⟨parents, name, rfl⟩
    · rcases List.eq_nil_or_concat between with rfl | ⟨parents, name, rfl⟩
      · simp
      · have file : namesKept [name] = true := by
          refine namesKept_fileName (outer ++ parents) ?_
          simpa using found.2.1
        rw [List.append_nil, List.concat_eq_append, List.dropLast_concat, namesKept_append, file,
          Bool.and_true]
    · rw [List.concat_eq_append, List.dropLast_concat] at inner
      rw [List.concat_eq_append, ← List.append_assoc, List.dropLast_concat, namesKept_append, inner,
        Bool.and_true]
  constructor
  · intro outerFound
    obtain ⟨_, _, seen⟩ := reached_of_discovered outerFound
    exact seenOuter.mp seen
  · intro kept
    exact discovered_of_reached found (seenOuter.mpr kept)

/-- Two roots share a discovered file exactly when one of them nests the other. -/
theorem shared_iff_nests (tree : FileTree) (first second : Path) :
    (∃ path, Discovered tree first path ∧ Discovered tree second path) ↔
      Nests tree first second ∨ Nests tree second first := by
  have nested (outer inner path : Path) (below : outer <+: inner)
      (outerFound : Discovered tree outer path) (innerFound : Discovered tree inner path) :
      Nests tree outer inner := by
    obtain ⟨between, rfl⟩ := below
    obtain ⟨rest, rfl, -⟩ := reached_of_discovered innerFound
    refine ⟨List.prefix_append _ _, ?_, _, innerFound⟩
    rw [List.drop_left]
    exact (discovered_outer_iff innerFound).mp outerFound
  have shared (outer inner : Path) (nests : Nests tree outer inner) :
      ∃ path, Discovered tree outer path ∧ Discovered tree inner path := by
    obtain ⟨⟨between, rfl⟩, kept, path, found⟩ := nests
    obtain ⟨rest, rfl, -⟩ := reached_of_discovered found
    rw [List.drop_left] at kept
    exact ⟨_, (discovered_outer_iff found).mpr kept, found⟩
  constructor
  · rintro ⟨path, inFirst, inSecond⟩
    obtain ⟨firstRest, firstPath, -⟩ := reached_of_discovered inFirst
    obtain ⟨secondRest, secondPath, -⟩ := reached_of_discovered inSecond
    have firstBelow : first <+: path := ⟨firstRest, firstPath.symm⟩
    have secondBelow : second <+: path := ⟨secondRest, secondPath.symm⟩
    rcases List.prefix_or_prefix_of_prefix firstBelow secondBelow with below | below
    · exact .inl (nested first second path below inFirst inSecond)
    · exact .inr (nested second first path below inSecond inFirst)
  · rintro (nests | nests)
    · exact shared first second nests
    · obtain ⟨path, inSecond, inFirst⟩ := shared second first nests
      exact ⟨path, inFirst, inSecond⟩

/-- A build has pairwise distinct ids exactly when no scope root nests another
position of the list, provided the hash tells the discovered paths apart. -/
theorem nodup_ids_iff {scopeRoots : List ScopeRoot} {tree : FileTree} {skills : List (BuiltSkill F)}
    (collisionFree : ∀ scope ∈ scopeRoots, ∀ other ∈ scopeRoots, ∀ path otherPath,
      Discovered tree scope.root path → Discovered tree other.root otherPath →
      skillId services path = skillId services otherPath → path = otherPath)
    (built : buildSkillsFromScopeRoots services scopeRoots tree = .ok skills) :
    (skills.map BuiltSkill.id).Nodup ↔
      ∀ (i j : Nat) (iInside : i < scopeRoots.length) (jInside : j < scopeRoots.length), i ≠ j →
        ¬ Nests tree scopeRoots[i].root scopeRoots[j].root := by
  obtain ⟨paths, ids⟩ := paths_of_build services built
  have found {skill : BuiltSkill F} (member : skill ∈ skills) :
      ∃ scope ∈ scopeRoots, Discovered tree scope.root skill.sourcePath := by
    have inPaths := paths.subset (List.mem_map_of_mem member)
    obtain ⟨scope, inScopes, discovered⟩ := List.mem_flatMap.mp inPaths
    exact ⟨scope, inScopes, mem_discoveredPaths.mp discovered⟩
  have idsToPaths : (skills.map BuiltSkill.id).Nodup ↔ (skills.map BuiltSkill.sourcePath).Nodup := by
    rw [List.Nodup, List.Nodup, List.pairwise_map, List.pairwise_map]
    refine List.Pairwise.iff_of_mem fun {first second} firstMember secondMember => ?_
    refine not_congr ⟨fun same => ?_, fun same => ?_⟩
    · obtain ⟨scope, inScopes, discovered⟩ := found firstMember
      obtain ⟨other, otherInScopes, otherDiscovered⟩ := found secondMember
      rw [ids first firstMember, ids second secondMember] at same
      exact collisionFree scope inScopes other otherInScopes _ _ discovered otherDiscovered same
    · rw [ids first firstMember, ids second secondMember, same]
  have apart (i j : Nat) (iInside : i < scopeRoots.length) (jInside : j < scopeRoots.length) :
      (discoveredPaths tree scopeRoots[i].root).Disjoint (discoveredPaths tree scopeRoots[j].root) ↔
        ¬ Nests tree scopeRoots[i].root scopeRoots[j].root ∧
          ¬ Nests tree scopeRoots[j].root scopeRoots[i].root := by
    rw [← not_or, ← shared_iff_nests]
    simp only [List.Disjoint, mem_discoveredPaths, not_exists, not_and]
  rw [idsToPaths, paths.nodup_iff, List.nodup_flatMap, List.pairwise_iff_getElem]
  constructor
  · rintro ⟨-, disjoint⟩ i j iInside jInside different
    rcases Nat.lt_or_gt_of_ne different with before | after
    · exact ((apart i j iInside jInside).mp (disjoint i j iInside jInside before)).1
    · exact ((apart j i jInside iInside).mp (disjoint j i jInside iInside after)).2
  · intro separate
    refine ⟨fun scope _ => nodup_discoveredPaths tree scope.root, ?_⟩
    intro i j iInside jInside before
    exact (apart i j iInside jInside).mpr
      ⟨separate i j iInside jInside (Nat.ne_of_lt before),
        separate j i jInside iInside (Nat.ne_of_gt before)⟩

/-! ### Concrete trees -/

/-- Services that embed every text to one number, with the digests of three paths. -/
def sampleServices : BuildServices Nat where
  reader := ⟨fun _ => .error "no frontmatter", fun _ => []⟩
  hash bytes :=
    if bytes = Str.utf8 "/repo/a/SKILL.md" then
      "30aa148927d3e626813f670921347d3b37833789bf8a90d7bc766a46ea39528b"
    else if bytes = Str.utf8 "/repo/b/SKILL.md" then
      "ec0e98444da97d37e6521d527eb53e9a059d9b2357189955c1829b2531879a4e"
    else "71e0a9e28b4284e9bd215d8713a9de276627bbe407321fb6c090ca986f65b14d"
  embedBatch texts := .ok (texts.map fun _ => [1])

def sampleFile : Entry := .file ⟨.ok [], .ok "# Tips", .ok 1⟩

def siblingTree : FileTree where
  entries :=
    [([[], "repo"], .directory), ([[], "repo", "a"], .directory),
      ([[], "repo", "a", "SKILL.md"], sampleFile), ([[], "repo", "b"], .directory),
      ([[], "repo", "b", "SKILL.md"], sampleFile)]
  nodup := by decide +kernel

def siblingRoots : List ScopeRoot :=
  [⟨"project", .project, [[], "repo", "a"]⟩, ⟨"global", .global, [[], "repo", "b"]⟩]

def sampleSkill (scope : ScopeRoot) (path : Path) : BuiltSkill Nat :=
  ⟨skillId sampleServices path, scope.scopeId, scope.scopeType, path, "Tips",
    "No description provided", [], [], [1]⟩

theorem siblingRoots_nodup :
    ∃ skills, buildSkillsFromScopeRoots sampleServices siblingRoots siblingTree = .ok skills ∧
      (skills.map BuiltSkill.id).Nodup := by
  have built : buildSkillsFromScopeRoots sampleServices siblingRoots siblingTree =
      .ok [sampleSkill ⟨"project", .project, [[], "repo", "a"]⟩ [[], "repo", "a", "SKILL.md"],
        sampleSkill ⟨"global", .global, [[], "repo", "b"]⟩ [[], "repo", "b", "SKILL.md"]] := by
    decide +kernel
  have paths : ∀ scope ∈ siblingRoots, ∀ path, Discovered siblingTree scope.root path →
      path = [[], "repo".toList, "a".toList, "SKILL.md".toList] ∨
        path = [[], "repo".toList, "b".toList, "SKILL.md".toList] := by
    intro scope member path found
    rw [← mem_discoveredPaths] at found
    have all : ∀ scope ∈ siblingRoots, ∀ path ∈ discoveredPaths siblingTree scope.root,
        path = [[], "repo".toList, "a".toList, "SKILL.md".toList] ∨
          path = [[], "repo".toList, "b".toList, "SKILL.md".toList] := by decide +kernel
    exact all scope member path found
  refine ⟨_, built, (nodup_ids_iff sampleServices ?_ built).mpr ?_⟩
  · intro scope member other otherMember path otherPath found otherFound
    rcases paths scope member path found with rfl | rfl <;>
      rcases paths other otherMember otherPath otherFound with rfl | rfl <;> decide +kernel
  · rintro i j iInside jInside different ⟨below, -, -⟩
    have apart : ∀ first second : Fin siblingRoots.length, first ≠ second →
        ¬ (siblingRoots.get first).root <+: (siblingRoots.get second).root := by decide +kernel
    exact apart ⟨i, iInside⟩ ⟨j, jInside⟩ (fun same => different (congrArg Fin.val same)) below

def docsTree : FileTree where
  entries :=
    [([[], "repo"], .directory), ([[], "repo", "docs"], .directory),
      ([[], "repo", "docs", "a"], .directory), ([[], "repo", "docs", "a", "SKILL.md"], sampleFile)]
  nodup := by decide +kernel

/-- The default roots for the working directory `/repo`. -/
def defaultRoots : List ScopeRoot :=
  [⟨"project", .project, [[], "repo"]⟩, ⟨"global", .global, [[], "repo", "docs"]⟩]

/-- Under the default roots a skill in the docs directory is built twice. -/
theorem defaultRoots_repeat_id :
    ∃ skills, buildSkillsFromScopeRoots sampleServices defaultRoots docsTree = .ok skills ∧
      ¬ (skills.map BuiltSkill.id).Nodup := by
  refine ⟨[sampleSkill ⟨"project", .project, []⟩ [[], "repo", "docs", "a", "SKILL.md"],
    sampleSkill ⟨"global", .global, []⟩ [[], "repo", "docs", "a", "SKILL.md"]], ?_, ?_⟩
  · decide +kernel
  · decide +kernel

end SkillLayer.GraphBuilder
