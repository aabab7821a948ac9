import LogOrder.FileTree

/-!
# Files by their names

A name leads through directories to a file or to a free place, and what is written there is found
again under the same name.

* `stands_of_follow`: what stands where a name leads;
* `create_eq_ok_iff`: making a file changes one place, where a file stands or nothing;
* `open?_put`: the name leads to what is written there;
* `Closed.find?_of_open?`: when everything stands in directories, what a name leads to is there.
-/

namespace LogOrder.FileTree

/-- What the tree has where a name leads. A directory on the way back from another is not looked up
again, so nothing is said of directories. -/
inductive Stands (t : FileTree) : Spot → Prop
  | file {path : Path} {content : Bytes} (hne : path ≠ [])
      (hfind : t.find? path = some (.file content)) : Stands t (.present path (.file content))
  | directory {path : Path} : Stands t (.present path .directory)
  | vacant {path : Path} (hne : path ≠ []) (hfind : t.find? path = none) : Stands t (.vacant path)
  | noDirectory {fault : IoFault} : Stands t (.noDirectory fault)

/-- Where a file of that name can be made: where one stands already, or nothing. -/
def Spot.room? : Spot → Option Path
  | .present path (.file _) => some path
  | .vacant path => some path
  | .present _ .directory => none
  | .noDirectory _ => none

section Follow

variable {t : FileTree} {slash : Bool} {here path : Path} {parts : List String} {spot : Spot}

theorem Stands.of_ite {p : Prop} [Decidable p] {fault : IoFault}
    (h : (if p then .ok (.noDirectory fault) else .error fault) = Except.ok (ε := IoFault) spot) :
    Stands t spot := by
  split at h
  · cases h
    exact .noDirectory
  · cases h

theorem stands_of_follow (h : t.follow slash here parts = .ok spot) : Stands t spot := by
  fun_induction follow t slash here parts with
  | case1 here =>
    cases h
    exact .directory
  | case2 here rest ih => exact ih h
  | case3 here rest hdot ih => exact ih h
  | case4 => exact .of_ite h
  | case5 here part rest hdot hup next hshort hfind ih => exact ih h
  | case6 here part rest hdot hup next hshort content hfind hlast =>
    cases h
    exact .file (by simp [next]) hfind
  | case7 => exact .of_ite h
  | case8 here part rest hdot hup next hshort hfind hlast =>
    cases h
    exact .vacant (by simp [next]) hfind
  | case9 => exact .of_ite h

/-- There is room for a file only below a directory and in the place of none. -/
theorem Stands.of_room? (hstands : Stands t spot) (hroom : spot.room? = some path) :
    path ≠ [] ∧ t.find? path ≠ some .directory := by
  cases hstands with
  | file hne hfind =>
    cases hroom
    exact ⟨hne, by rw [hfind]; exact nofun⟩
  | directory => cases hroom
  | vacant hne hfind =>
    cases hroom
    exact ⟨hne, by rw [hfind]; exact nofun⟩
  | noDirectory => cases hroom

theorem room?_of_ite {p : Prop} [Decidable p] {fault : IoFault}
    (h : (if p then .ok (.noDirectory fault) else .error fault) = Except.ok (ε := IoFault) spot) :
    spot.room? = none := by
  split at h
  · cases h
    rfl
  · cases h

/-- The same parts lead to a file that is put where they led before: all that they go through are
directories. -/
theorem follow_put (h : t.follow slash here parts = .ok spot) (hroom : spot.room? = some path)
    (content : Bytes) : (t.put path (.file content)).follow slash here parts =
      .ok (.present path (.file content)) := by
  obtain ⟨hne, hdirectory⟩ := (stands_of_follow h).of_room? hroom
  fun_induction follow t slash here parts with
  | case1 here =>
    cases h
    cases hroom
  | case2 here rest ih =>
    rw [follow, if_pos rfl]
    exact ih h
  | case3 here rest hdot ih =>
    rw [follow, if_neg hdot, if_pos rfl]
    exact ih h
  | case4 => cases (room?_of_ite h).symm.trans hroom
  | case5 here part rest hdot hup next hshort hfind ih =>
    have hother : next ≠ path := by
      rintro rfl
      exact hdirectory hfind
    have hkept := (t.find?_put_of_ne hother (.file content)).trans hfind
    rw [follow, if_neg hdot, if_neg hup]
    dsimp only
    rw [if_neg hshort, hkept]
    exact ih h
  | case6 here part rest hdot hup next hshort was hfind hlast =>
    cases h
    obtain rfl : next = path := Option.some.inj hroom
    rw [follow, if_neg hdot, if_neg hup]
    dsimp only
    rw [if_neg hshort, t.find?_put hne]
    exact if_pos hlast
  | case7 => cases (room?_of_ite h).symm.trans hroom
  | case8 here part rest hdot hup next hshort hfind hlast =>
    cases h
    obtain rfl : next = path := Option.some.inj hroom
    rw [follow, if_neg hdot, if_neg hup]
    dsimp only
    rw [if_neg hshort, t.find?_put hne]
    exact if_pos hlast
  | case9 => cases (room?_of_ite h).symm.trans hroom

end Follow

section Name

variable {t tree : FileTree} {working path : Path} {name : String} {spot : Spot}

/-- Following a name is following its parts, from the root or the working directory. -/
theorem exists_follow_of_resolve (h : t.resolve working name = .ok spot) :
    ∃ slash here parts, (here = [] ∨ here = working) ∧ t.follow slash here parts = .ok spot ∧
      ∀ t' : FileTree, t'.resolve working name = t'.follow slash here parts := by
  unfold resolve at h ⊢
  dsimp only at h ⊢
  split at h
  · cases h
  · next hne =>
    split at h
    · cases h
    · next hnul =>
      split at h
      · cases h
      · next hshort =>
        refine ⟨_, _, _, ?_, h, ?_⟩
        · split
          · exact .inl rfl
          · exact .inr rfl
        · intro t'
          rw [if_neg hne, if_neg hnul, if_neg hshort]

theorem stands_of_resolve (h : t.resolve working name = .ok spot) : Stands t spot := by
  obtain ⟨_, _, _, -, hfollow, -⟩ := exists_follow_of_resolve h
  exact stands_of_follow hfollow

/-- A name leads to the file that is put where it led before. -/
theorem open?_put (h : t.resolve working name = .ok spot) (hroom : spot.room? = some path)
    (content : Bytes) :
    (t.put path (.file content)).open? working name = .ok (path, .file content) := by
  obtain ⟨_, _, _, -, hfollow, hall⟩ := exists_follow_of_resolve h
  rw [open?, hall, follow_put hfollow hroom content]
  rfl

theorem find?_of_open? {content : Bytes} (h : t.open? working name = .ok (path, .file content)) :
    t.find? path = some (.file content) := by
  unfold open? at h
  cases hspot : t.resolve working name with
  | error why =>
    rw [hspot] at h
    cases h
  | ok spot =>
    rw [hspot] at h
    have hstands := stands_of_resolve hspot
    cases hstands with
    | file _ hfind =>
      cases h
      exact hfind
    | directory => cases h
    | vacant => cases h
    | noDirectory => cases h

/-- Making a file changes one place, at which there is room for it. -/
theorem create_eq_ok_iff : t.create working name = .ok (path, tree) ↔
    ∃ spot, t.resolve working name = .ok spot ∧ spot.room? = some path ∧
      tree = t.put path (.file []) := by
  unfold create
  cases t.resolve working name with
  | error why =>
    constructor
    · rintro ⟨⟩
    · rintro ⟨_, h, -⟩
      cases h
  | ok spot =>
    constructor
    · intro h
      refine ⟨spot, rfl, ?_⟩
      cases spot with
      | present place node =>
        cases node with
        | file content =>
          cases h
          exact ⟨rfl, rfl⟩
        | directory => cases h
      | vacant place =>
        cases h
        exact ⟨rfl, rfl⟩
      | noDirectory fault => cases h
    · rintro ⟨_, ⟨⟩, hroom, rfl⟩
      cases spot with
      | present place node =>
        cases node with
        | file content =>
          cases hroom
          rfl
        | directory => cases hroom
      | vacant place =>
        cases hroom
        rfl
      | noDirectory fault => cases hroom

theorem put_put (t : FileTree) (path : Path) (node other : Node) :
    (t.put path node).put path other = t.put path other := by
  simp [put]

/-- Bytes that are written to a new file are all that it holds. -/
theorem append_put (t : FileTree) (hne : path ≠ []) (bs : Bytes) :
    (t.put path (.file [])).append path bs = t.put path (.file bs) := by
  rw [append, t.find?_put hne]
  exact t.put_put path _ _

end Name

/-! ## Trees in which everything stands in a directory -/

/-- Everything that is there stands in a directory. -/
def Closed (t : FileTree) : Prop :=
  ∀ path, t.find? path ≠ none → t.find? path.dropLast = some .directory

section Closed

variable {t : FileTree} {slash : Bool} {here working path : Path} {parts : List String}
  {name : String} {node : Node}

theorem not_present_of_ite {p : Prop} [Decidable p] {fault : IoFault}
    (h : (if p then .ok (.noDirectory fault) else .error fault) =
      Except.ok (ε := IoFault) (Spot.present path node)) : False := by
  split at h
  · cases h
  · cases h

/-- Directories that are passed on the way, in either direction, are there. -/
theorem Closed.find?_of_follow (ht : t.Closed) (hhere : t.find? here = some .directory)
    (h : t.follow slash here parts = .ok (.present path node)) : t.find? path = some node := by
  fun_induction follow t slash here parts with
  | case1 here =>
    cases h
    exact hhere
  | case2 here rest ih => exact ih hhere h
  | case3 here rest hdot ih =>
    refine ih (ht here ?_) h
    rw [hhere]
    exact nofun
  | case4 => exact (not_present_of_ite h).elim
  | case5 here part rest hdot hup next hshort hfind ih => exact ih hfind h
  | case6 here part rest hdot hup next hshort content hfind hlast =>
    obtain ⟨hpath, rfl⟩ := Spot.present.inj (Except.ok.inj h)
    rw [← hpath]
    exact hfind
  | case7 => exact (not_present_of_ite h).elim
  | case8 => cases h
  | case9 => exact (not_present_of_ite h).elim

/-- A name leads to what is there. -/
theorem Closed.find?_of_open? (ht : t.Closed) (hworking : t.find? working = some .directory)
    (h : t.open? working name = .ok (path, node)) : t.find? path = some node := by
  unfold open? at h
  cases hspot : t.resolve working name with
  | error why =>
    rw [hspot] at h
    cases h
  | ok spot =>
    rw [hspot] at h
    cases spot with
    | vacant => cases h
    | noDirectory => cases h
    | present place found =>
      cases h
      obtain ⟨_, here, _, hstart, hfollow, -⟩ := exists_follow_of_resolve hspot
      refine ht.find?_of_follow ?_ hfollow
      rcases hstart with rfl | rfl
      · rfl
      · exact hworking

end Closed

/-! ## Faults of names -/

section Faults

variable {t : FileTree} {slash : Bool} {here working : Path} {parts : List String} {name : String}
  {spot : Spot}

theorem ite_ne_brokenPipe {p : Prop} [Decidable p] {fault : IoFault} (h : fault ≠ .brokenPipe) :
    (if p then .ok spot else .error fault : Except IoFault Spot) ≠ .error .brokenPipe := by
  split
  · exact nofun
  · exact fun heq => h (Except.error.inj heq)

theorem follow_ne_brokenPipe : t.follow slash here parts ≠ .error .brokenPipe := by
  fun_induction follow t slash here parts with
  | case1 => exact nofun
  | case2 here rest ih => exact ih
  | case3 here rest hdot ih => exact ih
  | case4 => exact ite_ne_brokenPipe nofun
  | case5 here part rest hdot hup next hshort hfind ih => exact ih
  | case6 => exact nofun
  | case7 => exact ite_ne_brokenPipe nofun
  | case8 => exact nofun
  | case9 => exact ite_ne_brokenPipe nofun

theorem resolve_ne_brokenPipe : t.resolve working name ≠ .error .brokenPipe := by
  unfold resolve
  dsimp only
  split
  · exact nofun
  split
  · exact nofun
  split
  · exact nofun
  · exact follow_ne_brokenPipe

/-- A file that cannot be made is no stream that lost its reader. -/
theorem create_ne_brokenPipe : t.create working name ≠ .error .brokenPipe := by
  unfold create
  cases hresolve : t.resolve working name with
  | error why =>
    intro h
    cases h
    exact resolve_ne_brokenPipe hresolve
  | ok spot => rcases spot with ⟨_, _ | _⟩ | _ | _ <;> exact nofun

end Faults

end LogOrder.FileTree
