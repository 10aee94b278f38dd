import Crashlog.PathBuf

/-!
# Directories

A directory tree without links, and what a path leads to in it. A path is
followed segment by segment, and every segment but the last one has to lead to
a directory. Names that a directory can hold lead down: for them, following a
path is walking down the tree.
-/

namespace Crashlog

inductive Entry (α : Type) where
  | file (content : α)
  | dir (entries : List (String × Entry α))

/-- A name that a directory can hold. -/
structure Proper (name : String) : Prop where
  nonempty : name ≠ ""
  notDot : name ≠ "."
  notParent : name ≠ ".."
  single : '/' ∉ name.toList

instance (name : String) : Decidable (Proper name) :=
  decidable_of_iff (name ≠ "" ∧ name ≠ "." ∧ name ≠ ".." ∧ '/' ∉ name.toList)
    ⟨fun ⟨nonempty, notDot, notParent, single⟩ => ⟨nonempty, notDot, notParent, single⟩,
      fun proper => ⟨proper.nonempty, proper.notDot, proper.notParent, proper.single⟩⟩

theorem Proper.relative {name : String} (proper : Proper name) : PathBuf.isAbsolute name = false := by
  rw [PathBuf.isAbsolute, beq_eq_false_iff_ne]
  exact fun slash => proper.single (List.mem_of_head? slash)

namespace Entry

variable {α : Type}

/-- The names in a directory are names, and differ. -/
inductive Sound : Entry α → Prop
  | file (content : α) : Sound (.file content)
  | dir {entries : List (String × Entry α)} (distinct : (entries.map Prod.fst).Nodup)
      (proper : ∀ entry ∈ entries, Proper entry.1) (below : ∀ entry ∈ entries, Sound entry.2) :
      Sound (.dir entries)

def isDir : Entry α → Bool
  | .file _ => false
  | .dir _ => true

/-- What a directory holds; a file holds nothing. -/
def entries : Entry α → List (String × Entry α)
  | .file _ => []
  | .dir entries => entries

def get (self : Entry α) (name : String) : Option (Entry α) := self.entries.lookup name

def walk (self : Entry α) : List String → Option (Entry α)
  | [] => some self
  | name :: rest => (self.get name).bind fun entry => entry.walk rest

theorem walk_append (self : Entry α) (front rest : List String) :
    self.walk (front ++ rest) = (self.walk front).bind fun entry => entry.walk rest := by
  induction front generalizing self with
  | nil => rfl
  | cons name front ih =>
      simp only [List.cons_append, walk, Option.bind_assoc, ih]

theorem walk_single (self : Entry α) (name : String) : self.walk [name] = self.get name := by
  simp [walk]

/-! ## Sound trees -/

theorem lookup_eq_some_iff {entries : List (String × Entry α)} (distinct : (entries.map Prod.fst).Nodup)
    {name : String} {entry : Entry α} : entries.lookup name = some entry ↔ (name, entry) ∈ entries := by
  induction entries with
  | nil => simp
  | cons first rest ih =>
      obtain ⟨own, held⟩ := first
      rw [List.map_cons, List.nodup_cons] at distinct
      rw [List.lookup_cons, List.mem_cons, Prod.mk.injEq]
      by_cases same : name = own
      · subst same
        have absent : (name, entry) ∉ rest := fun member =>
          distinct.1 (List.mem_map.mpr ⟨_, member, rfl⟩)
        simp [absent, eq_comm]
      · rw [beq_false_of_ne same]
        simp [ih distinct.2, same]

namespace Sound

variable {self entry : Entry α} {name : String}

theorem distinct (sound : self.Sound) : (self.entries.map Prod.fst).Nodup := by
  cases sound with
  | file content => exact List.nodup_nil
  | dir distinct => exact distinct

theorem proper (sound : self.Sound) (member : (name, entry) ∈ self.entries) : Proper name := by
  cases sound with
  | file content => cases member
  | dir _ proper => exact proper _ member

theorem of_mem (sound : self.Sound) (member : (name, entry) ∈ self.entries) : entry.Sound := by
  cases sound with
  | file content => cases member
  | dir _ _ below => exact below _ member

theorem get_eq_some_iff (sound : self.Sound) : self.get name = some entry ↔ (name, entry) ∈ self.entries :=
  lookup_eq_some_iff sound.distinct

theorem of_walk {place : List String} (sound : self.Sound) (walked : self.walk place = some entry) :
    entry.Sound := by
  induction place generalizing self with
  | nil =>
      cases walked
      exact sound
  | cons name rest ih =>
      obtain ⟨held, found, below⟩ := Option.bind_eq_some_iff.mp walked
      exact ih (sound.of_mem (sound.get_eq_some_iff.mp found)) below

/-- Only names lead down. -/
theorem proper_of_walk {place : List String} (sound : self.Sound) (walked : self.walk place = some entry) :
    ∀ name ∈ place, Proper name := by
  induction place generalizing self with
  | nil => simp
  | cons name rest ih =>
      obtain ⟨held, found, below⟩ := Option.bind_eq_some_iff.mp walked
      have member := sound.get_eq_some_iff.mp found
      exact List.forall_mem_cons.mpr ⟨sound.proper member, ih (sound.of_mem member) below⟩

end Sound

/-! ## Following a path -/

/-- One segment of a path, from a place given by the names on its way down. -/
def step (top : Entry α) (place : List String) (segment : String) : Option (List String) :=
  if (top.walk place).any isDir then
    if segment = "" ∨ segment = "." then some place
    else if segment = ".." then some place.dropLast
    else if (top.walk (place ++ [segment])).isSome then some (place ++ [segment]) else none
  else none

/-- The empty path leads nowhere. -/
def resolve (top : Entry α) (current : List String) (path : PathBuf) : Option (List String) :=
  if path = "" then none
  else (Text.split '/' path).foldlM (step top) (if PathBuf.isAbsolute path then [] else current)

variable {top entry : Entry α} {place current : List String} {name : String}

theorem step_down (walked : top.walk place = some entry) (proper : Proper name) :
    step top place name = (entry.get name).map fun _ => place ++ [name] := by
  have named : ¬ (name = "" ∨ name = ".") := by
    rintro (empty | dot)
    · exact proper.nonempty empty
    · exact proper.notDot dot
  rw [step, walk_append, walked, Option.bind_some, walk_single, if_neg named, if_neg proper.notParent,
    Option.any_some]
  cases entry with
  | file content => rfl
  | dir entries =>
      cases (Entry.dir entries).get name <;> rfl

/-- Names lead down the tree, as far as it goes. -/
theorem fold_step {names : List String} (walked : top.walk place = some entry)
    (proper : ∀ name ∈ names, Proper name) :
    names.foldlM (step top) place = (entry.walk names).map fun _ => place ++ names := by
  induction names generalizing place entry with
  | nil => simp [walk]
  | cons name rest ih =>
      rw [List.forall_mem_cons] at proper
      rw [List.foldlM_cons, step_down walked proper.1, walk]
      cases found : entry.get name with
      | none => rfl
      | some held =>
          have further : top.walk (place ++ [name]) = some held := by
            rw [walk_append, walked, Option.bind_some, walk_single, found]
          rw [Option.map_some, Option.bind_some]
          refine (ih further proper.2).trans ?_
          simp only [List.append_assoc, List.cons_append, List.nil_append]

/-- A separator at the end of a path asks for a directory, and so does a name behind it. -/
theorem step_separator (place : List String) (segment : String) :
    (step top place "").bind (fun place => step top place segment) = step top place segment := by
  unfold step
  by_cases inDir : (top.walk place).any isDir <;> simp [inDir]

/-- The names of a push: the pieces of the path, except for an empty last one, and the name. -/
theorem split_push {base : PathBuf} (nonempty : base ≠ "") (proper : Proper name) :
    PathBuf.isAbsolute (PathBuf.push base name) = PathBuf.isAbsolute base ∧
      ∃ front, Text.split '/' (PathBuf.push base name) = front ++ [name] ∧
        (Text.split '/' base = front ∨ Text.split '/' base = front ++ [""]) := by
  have chars : base.toList ≠ [] := fun empty => nonempty (String.toList_eq_nil_iff.mp empty)
  have own : name.toList.splitOn '/' = [name.toList] := List.splitOn_eq_singleton proper.single
  rw [PathBuf.push, proper.relative, if_neg Bool.false_ne_true]
  split_ifs with unseparated
  · refine ⟨?_, Text.split '/' base, ?_, .inl rfl⟩
    · rw [String.append_assoc, PathBuf.is_absolute_append chars]
    · simp only [Text.split, String.toList_append, String.toList_singleton, List.append_assoc, List.cons_append,
        List.nil_append, List.splitOn_append_cons_self, List.map_append, own, List.map_cons, List.map_nil,
        String.ofList_toList]
  · refine ⟨PathBuf.is_absolute_append chars name, ?_⟩
    rcases List.eq_nil_or_concat base.toList with empty | ⟨front, last, whole⟩
    · exact absurd empty chars
    · rw [whole, List.concat_eq_append, List.getLast?_append_cons, List.getLast?_singleton] at unseparated
      have slash : last = '/' := by simpa using unseparated
      refine ⟨(front.splitOn '/').map String.ofList, ?_, .inr ?_⟩
      · simp only [Text.split, String.toList_append, whole, slash, List.concat_eq_append, List.append_assoc,
          List.cons_append, List.nil_append, List.splitOn_append_cons_self, List.map_append, own, List.map_cons,
          List.map_nil, String.ofList_toList]
      · simp only [Text.split, whole, slash, List.concat_eq_append, List.splitOn_append_cons_self,
          List.splitOn_nil, List.map_append, List.map_cons, List.map_nil, String.ofList_nil]

theorem push_ne_empty {base : PathBuf} (nonempty : base ≠ "") (proper : Proper name) : PathBuf.push base name ≠ "" := by
  obtain ⟨_, front, pieces, _⟩ := split_push nonempty proper
  intro empty
  rw [empty] at pieces
  have last := congrArg List.getLast? pieces
  rw [List.getLast?_append_cons] at last
  exact proper.nonempty (Option.some.inj last).symm

theorem resolve_push {base : PathBuf} (nonempty : base ≠ "") (proper : Proper name) :
    resolve top current (PathBuf.push base name) =
      (resolve top current base).bind fun place => step top place name := by
  obtain ⟨absolute, front, pieces, own⟩ := split_push nonempty proper
  rw [resolve, resolve, if_neg (push_ne_empty nonempty proper), if_neg nonempty, absolute, pieces, List.foldlM_append]
  rcases own with same | separated
  · rw [same]
    simp only [List.foldlM_cons, List.foldlM_nil, bind_pure]
    rfl
  · rw [separated, List.foldlM_append]
    simp only [List.foldlM_cons, List.foldlM_nil, bind_pure]
    change _ = Option.bind (Option.bind _ _) _
    rw [Option.bind_assoc]
    simp only [step_separator]
    rfl

theorem resolve_extend {base : PathBuf} {names : List String} (nonempty : base ≠ "")
    (proper : ∀ name ∈ names, Proper name) :
    resolve top current (PathBuf.extend base names) =
      (resolve top current base).bind fun place => names.foldlM (step top) place := by
  induction names generalizing base with
  | nil =>
      change _ = Option.bind _ some
      rw [Option.bind_fun_some]
      rfl
  | cons name rest ih =>
      rw [List.forall_mem_cons] at proper
      rw [PathBuf.extend, List.foldl_cons, ← PathBuf.extend, ih (push_ne_empty nonempty proper.1) proper.2,
        resolve_push nonempty proper.1, Option.bind_assoc]
      rfl

/-- Names behind a path lead down from where the path leads. -/
theorem resolve_names {base : PathBuf} {names : List String} (nonempty : base ≠ "")
    (found : resolve top current base = some place) (walked : top.walk place = some entry)
    (proper : ∀ name ∈ names, Proper name) :
    resolve top current (PathBuf.extend base names) = (entry.walk names).map fun _ => place ++ names := by
  rw [resolve_extend nonempty proper, found, Option.bind_some, fold_step walked proper]

end Entry

/-! ## Canonical paths -/

namespace PathBuf

/-- The absolute path of a place. -/
def ofPlace (place : List String) : PathBuf := extend "/" place

theorem names_single {name : String} (proper : Proper name) : names name = [name] := by
  rw [names, Text.split_single proper.single]
  simp [proper.nonempty, proper.notDot]

theorem names_push {base : PathBuf} {name : String} (proper : Proper name) : names (push base name) = names base ++ [name] := by
  have own := names_single proper
  rw [push, proper.relative, if_neg Bool.false_ne_true]
  split_ifs with unseparated
  · rw [names_append_separator, own]
  · rw [names_append_of_separated (by simpa using unseparated), own]

theorem names_extend {base : PathBuf} {elements : List String} (proper : ∀ name ∈ elements, Proper name) :
    names (extend base elements) = names base ++ elements := by
  induction elements generalizing base with
  | nil => simp [extend]
  | cons name rest ih =>
      rw [List.forall_mem_cons] at proper
      rw [extend, List.foldl_cons, ← extend, ih proper.2, names_push proper.1, List.append_assoc]
      rfl

theorem is_absolute_extend {base : PathBuf} {elements : List String} (nonempty : base ≠ "")
    (proper : ∀ name ∈ elements, Proper name) : isAbsolute (extend base elements) = isAbsolute base := by
  induction elements generalizing base with
  | nil => rfl
  | cons name rest ih =>
      rw [List.forall_mem_cons] at proper
      rw [extend, List.foldl_cons, ← extend, ih (Entry.push_ne_empty nonempty proper.1) proper.2,
        (Entry.split_push nonempty proper.1).1]

theorem components_of_place {place : List String} (proper : ∀ name ∈ place, Proper name) :
    components (ofPlace place) = "/" :: place := by
  rw [components, ofPlace, is_absolute_extend (by decide) proper, names_extend proper]
  rfl

/-- What stands behind a path does not change its first piece. -/
theorem head_push {base : PathBuf} {name : String} (nonempty : base ≠ "") (proper : Proper name) :
    (Text.split '/' (push base name)).head? = (Text.split '/' base).head? := by
  obtain ⟨_, front, pieces, own⟩ := Entry.split_push nonempty proper
  rw [pieces]
  cases front with
  | cons first rest => rcases own with same | separated <;> simp_all
  | nil =>
      rcases own with same | separated
      · exact absurd same (Text.split_ne_nil '/' base)
      · have joined := congrArg (List.map String.toList) separated
        rw [Text.split, List.map_map] at joined
        have pieces : base.toList.splitOn '/' = [[]] := by simpa [Function.comp_def] using joined
        have whole : ['/'].intercalate (base.toList.splitOn '/') = base.toList := List.intercalate_splitOn '/'
        rw [pieces] at whole
        exact absurd (String.toList_eq_nil_iff.mp whole.symm) nonempty

theorem head_extend {base : PathBuf} {elements : List String} (nonempty : base ≠ "")
    (proper : ∀ name ∈ elements, Proper name) :
    (Text.split '/' (extend base elements)).head? = (Text.split '/' base).head? := by
  induction elements generalizing base with
  | nil => rfl
  | cons name rest ih =>
      rw [List.forall_mem_cons] at proper
      rw [extend, List.foldl_cons, ← extend, ih (Entry.push_ne_empty nonempty proper.1) proper.2,
        head_push nonempty proper.1]

theorem collect_cons {name : String} (proper : Proper name) (rest : List String) :
    collect (name :: rest) = extend name rest := by
  rw [collect, extend, List.foldl_cons, push, proper.relative]
  rfl

theorem collect_relative {elements : List String} (proper : ∀ name ∈ elements, Proper name) :
    isAbsolute (collect elements) = false := by
  cases elements with
  | nil => rfl
  | cons name rest =>
      rw [List.forall_mem_cons] at proper
      rw [collect_cons proper.1, is_absolute_extend proper.1.nonempty proper.2, proper.1.relative]

/-- Names without a base are the components of their path. -/
theorem components_collect {elements : List String} (proper : ∀ name ∈ elements, Proper name) :
    components (collect elements) = elements := by
  cases elements with
  | nil => rfl
  | cons name rest =>
      have others := (List.forall_mem_cons.mp proper).2
      have first := (List.forall_mem_cons.mp proper).1
      rw [components, collect_cons first, is_absolute_extend first.nonempty others, first.relative,
        head_extend first.nonempty others, names_extend others, names_single first, Text.split_single first.single,
        if_neg Bool.false_ne_true, if_neg (by simpa using first.notDot)]
      rfl

theorem push_relative {base path : PathBuf} (relative : isAbsolute path = false) :
    push base path = if base.toList.getLast?.any (· != '/') then base ++ String.singleton '/' ++ path
      else base ++ path := by
  rw [push, relative, if_neg Bool.false_ne_true]

/-- A path ends in the last character of its last name. -/
theorem unseparated_push {base : PathBuf} {name : String} (proper : Proper name) :
    (push base name).toList.getLast?.any (· != '/') = true := by
  have chars : name.toList ≠ [] := fun empty => proper.nonempty (String.toList_eq_nil_iff.mp empty)
  have last : (push base name).toList.getLast? = name.toList.getLast? := by
    rw [push_relative proper.relative]
    split_ifs
    · rw [String.toList_append, List.getLast?_append_of_ne_nil _ chars]
    · rw [String.toList_append, List.getLast?_append_of_ne_nil _ chars]
  rw [last, List.getLast?_eq_some_getLast chars, Option.any_some, bne_iff_ne]
  intro slash
  exact proper.single (slash ▸ List.getLast_mem chars)

/-- Joining a path of names at once, or name by name. -/
theorem push_push {base path : PathBuf} {name : String} (relative : isAbsolute path = false)
    (unseparated : path.toList.getLast?.any (· != '/') = true) (proper : Proper name) :
    push base (push path name) = push (push base path) name := by
  have chars : path.toList ≠ [] := by
    intro empty
    rw [empty] at unseparated
    cases unseparated
  have inner : push path name = path ++ String.singleton '/' ++ name := by
    rw [push_relative proper.relative, if_pos unseparated]
  have relativeInner : isAbsolute (push path name) = false := by
    rw [inner, String.append_assoc, is_absolute_append chars, relative]
  have outer : (push base path).toList.getLast?.any (· != '/') = true := by
    rw [push_relative relative]
    split_ifs
    · rwa [String.toList_append, List.getLast?_append_of_ne_nil _ chars]
    · rwa [String.toList_append, List.getLast?_append_of_ne_nil _ chars]
  rw [@push_relative (push base path) name proper.relative, if_pos outer, push_relative relativeInner,
    push_relative relative, inner]
  split_ifs
  · simp only [String.append_assoc]
  · simp only [String.append_assoc]

theorem push_collect {base : PathBuf} {elements : List String} (nonempty : elements ≠ [])
    (proper : ∀ name ∈ elements, Proper name) : push base (collect elements) = extend base elements := by
  induction elements using List.reverseRecOn with
  | nil => exact absurd rfl nonempty
  | append_singleton front name ih =>
      have properName := proper name (List.mem_append_right _ List.mem_cons_self)
      have properFront : ∀ name ∈ front, Proper name := fun other member =>
        proper other (List.mem_append_left _ member)
      have step (base : PathBuf) : extend base (front ++ [name]) = push (extend base front) name := by
        rw [extend, List.foldl_append]
        rfl
      rw [collect, step, step]
      rcases List.eq_nil_or_concat front with rfl | ⟨first, last, whole⟩
      · have start : push "" name = name := by
          rw [push_relative properName.relative]
          rfl
        change push base (push "" name) = push base name
        rw [start]
      · rw [List.concat_eq_append] at whole
        have properLast : Proper last := properFront last (by simp [whole])
        have unseparated : (collect front).toList.getLast?.any (· != '/') = true := by
          rw [whole, collect, extend, List.foldl_append]
          exact unseparated_push properLast
        rw [← collect, push_push (collect_relative properFront) unseparated properName, ih (by simp [whole]) properFront]

end PathBuf

namespace Entry

variable {α : Type} {top entry : Entry α} {place current : List String}

theorem resolve_of_place (current : List String) (sound : top.Sound) (directory : top.isDir) (walked : top.walk place = some entry) :
    resolve top current (PathBuf.ofPlace place) = some place := by
  have root : resolve top current "/" = some [] := by
    cases top with
    | file content => cases directory
    | dir entries => rfl
  rw [PathBuf.ofPlace, resolve_names (by decide) root rfl (sound.proper_of_walk walked), walked]
  rfl

/-! ## What a path leads to -/

theorem walk_dropLast (exists_here : (top.walk place).isSome) : (top.walk place.dropLast).isSome := by
  rcases List.eq_nil_or_concat place with rfl | ⟨front, last, rfl⟩
  · exact exists_here
  · rw [List.concat_eq_append, walk_append] at exists_here
    rw [List.concat_eq_append, List.dropLast_concat]
    exact Option.isSome_of_isSome_bind exists_here

theorem step_walk {next : List String} {segment : String} (stepped : step top place segment = some next) :
    (top.walk next).isSome := by
  unfold step at stepped
  split_ifs at stepped with inDir stay up down
  · cases stepped
    obtain ⟨held, walked, _⟩ := (Option.any_eq_true isDir _).mp inDir
    exact Option.isSome_of_eq_some walked
  · cases stepped
    obtain ⟨held, walked, _⟩ := (Option.any_eq_true isDir _).mp inDir
    exact walk_dropLast (Option.isSome_of_eq_some walked)
  · cases stepped
    exact down

theorem fold_walk {segments : List String} {next : List String} (some_segment : segments ≠ [])
    (folded : segments.foldlM (step top) place = some next) : (top.walk next).isSome := by
  induction segments generalizing place with
  | nil => exact absurd rfl some_segment
  | cons segment rest ih =>
      rw [List.foldlM_cons] at folded
      obtain ⟨between, first, others⟩ := Option.bind_eq_some_iff.mp folded
      cases rest with
      | nil =>
          cases others
          exact step_walk first
      | cons second rest => exact ih (List.cons_ne_nil _ _) others

/-- A path that is resolved leads to a file or a directory. -/
theorem resolve_walk {path : PathBuf} (found : resolve top current path = some place) :
    ∃ entry, top.walk place = some entry := by
  unfold resolve at found
  split_ifs at found
  all_goals exact Option.isSome_iff_exists.mp (fold_walk (Text.split_ne_nil '/' path) found)

theorem step_follow {next : List String} {segment : String} (single : segment ≠ "/")
    (stepped : step top place segment = some next) :
    next = if segment != "" && segment != "." then PathBuf.step place segment else place := by
  unfold step at stepped
  split_ifs at stepped with inDir stay up down <;> cases stepped
  · rcases stay with rfl | rfl <;> rfl
  · subst up
    rfl
  · rw [not_or] at stay
    rw [if_pos (by simp [stay.1, stay.2]), PathBuf.step, if_neg single, if_neg stay.2, if_neg up]

/-- Without links, a path leads where its components lead. -/
theorem resolve_follow {path : PathBuf} (found : resolve top current path = some place) :
    place = PathBuf.follow current path := by
  have folded : ∀ (segments : List String) (start next : List String), (∀ segment ∈ segments, segment ≠ "/") →
      segments.foldlM (step top) start = some next →
      next = (segments.filter fun name => name != "" && name != ".").foldl PathBuf.step start := by
    intro segments
    induction segments with
    | nil =>
        intro start next _ done
        exact (Option.some.inj done).symm
    | cons segment rest ih =>
        intro start next single done
        rw [List.forall_mem_cons] at single
        rw [List.foldlM_cons] at done
        obtain ⟨between, first, others⟩ := Option.bind_eq_some_iff.mp done
        rw [ih between next single.2 others, step_follow single.1 first, List.filter_cons]
        split_ifs <;> rfl
  have single : ∀ segment ∈ Text.split '/' path, segment ≠ "/" := by
    rintro _ member rfl
    exact Text.not_mem_of_split member (by decide)
  rw [PathBuf.follow_eq]
  unfold resolve at found
  split_ifs at found with empty absolute
  · rw [if_pos absolute]
    exact folded _ _ _ single found
  · rw [if_neg absolute]
    exact folded _ _ _ single found

/-! ## The entries of a level -/

/-- The entries some levels down, with the names that lead to them. -/
def descend : Nat → Entry α → List (List String × Entry α)
  | 0, self => [([], self)]
  | depth + 1, self => self.entries.flatMap fun entry =>
      (descend depth entry.2).map fun below => (entry.1 :: below.1, below.2)

/-- All entries of the levels above are directories. -/
def Leveled : Nat → Entry α → Prop
  | 0, _ => True
  | depth + 1, self => self.isDir ∧ ∀ entry ∈ self.entries, Leveled depth entry.2

theorem mem_descend_iff {depth : Nat} {self : Entry α} (sound : self.Sound) {names : List String} :
    (names, entry) ∈ self.descend depth ↔ names.length = depth ∧ self.walk names = some entry := by
  induction depth generalizing self names with
  | zero =>
      rw [descend, List.mem_singleton, Prod.mk.injEq, List.length_eq_zero_iff]
      constructor
      · rintro ⟨rfl, rfl⟩
        exact ⟨rfl, rfl⟩
      · rintro ⟨rfl, walked⟩
        cases walked
        exact ⟨rfl, rfl⟩
  | succ depth ih =>
      rw [descend, List.mem_flatMap]
      constructor
      · rintro ⟨⟨name, held⟩, member, below⟩
        obtain ⟨⟨rest, reached⟩, further, same⟩ := List.mem_map.mp below
        cases same
        obtain ⟨deep, walked⟩ := (ih (sound.of_mem member)).mp further
        refine ⟨congrArg Nat.succ deep, ?_⟩
        rw [walk, sound.get_eq_some_iff.mpr member, Option.bind_some, walked]
      · rintro ⟨deep, walked⟩
        cases names with
        | nil => cases deep
        | cons name rest =>
            obtain ⟨held, found, below⟩ := Option.bind_eq_some_iff.mp walked
            have member := sound.get_eq_some_iff.mp found
            exact ⟨(name, held), member, List.mem_map.mpr ⟨(rest, entry),
              (ih (sound.of_mem member)).mpr ⟨Nat.succ.inj deep, below⟩, rfl⟩⟩

/-- Every place is listed once. -/
theorem descend_nodup (depth : Nat) {self : Entry α} (sound : self.Sound) :
    ((self.descend depth).map Prod.fst).Nodup := by
  induction depth generalizing self with
  | zero => exact List.nodup_singleton _
  | succ depth ih =>
      rw [descend, List.map_flatMap, List.nodup_flatMap]
      constructor
      · rintro ⟨name, held⟩ member
        rw [List.map_map]
        have below := (ih (sound.of_mem member)).map (f := fun rest => name :: rest) fun _ _ same =>
          (List.cons.inj same).2
        rwa [List.map_map] at below
      · refine List.Pairwise.imp ?_ (List.pairwise_map.mp sound.distinct)
        rintro ⟨name, held⟩ ⟨other, otherHeld⟩ apart names left right
        obtain ⟨_, leftMember, rfl⟩ := List.mem_map.mp left
        obtain ⟨_, _, rfl⟩ := List.mem_map.mp leftMember
        obtain ⟨_, rightMember, same⟩ := List.mem_map.mp right
        obtain ⟨_, _, rfl⟩ := List.mem_map.mp rightMember
        exact apart (List.cons.inj same).1.symm

end Entry

end Crashlog
