import Mathlib.Tactic.Common
import CodexRemote.Protocol
import CodexRemote.Library.Utf8

/-!
# Paths below a workspace root

A client names an entry of a workspace by a path relative to its root.
`canonicalRelative` and `within` of `internal/workspace/service.go` rest on functions of
the standard library that work on the text of a path, which are modelled here: the
separator is a slash, and a path is read as the elements between slashes. Links are not
followed, and no file is looked at.
-/
namespace CodexRemote.Paths

open Protocol List Option

def slash : UInt8 := 47
def backslash : UInt8 := 92
def dot : Text := [46]
def dotdot : Text := [46, 46]

/-- `strings.Split` at slashes. -/
def split (path : Text) : List Text := path.splitOn slash

/-- `strings.Join` with slashes. -/
def join (parts : List Text) : Text := [slash].intercalate parts

/-- `filepath.IsAbs` -/
def isAbs (path : Text) : Bool := path.head? = some slash

/-- What `path.Clean` does with the next element; those it keeps, last first. -/
def cleanStep (rooted : Bool) (kept : List Text) (part : Text) : List Text :=
  if part = [] ∨ part = dot then kept
  else if part ≠ dotdot then part :: kept
  else
    match kept with
    | [] => if rooted then [] else [dotdot]
    | last :: rest => if last = dotdot then dotdot :: kept else rest

def elements (path : Text) : List Text := ((split path).foldl (cleanStep (isAbs path)) []).reverse

/-- `path.Clean`, which is `filepath.Clean` here. -/
def clean (path : Text) : Text :=
  let cleaned := (if isAbs path then [slash] else []) ++ join (elements path)
  if cleaned = [] then dot else cleaned

/-- `filepath.Join` of two paths. -/
def filepathJoin (root relative : Text) : Text :=
  if root ≠ [] then clean (root ++ slash :: relative)
  else if relative ≠ [] then clean relative
  else []

/-- What two lists have after their common beginning. -/
def dropCommon : List Text → List Text → List Text × List Text
  | base :: bases, target :: targets =>
      if base = target then dropCommon bases targets else (base :: bases, target :: targets)
  | bases, targets => (bases, targets)

/-- `filepath.Rel`, which goes up from what only the base has. The service compares
absolute paths. -/
def rel (base target : Text) : Option Text :=
  if clean target = clean base then some dot
  else if isAbs (clean base) ≠ isAbs (clean target) then none
  else
    let (up, down) := dropCommon (elements (clean base)) (elements (clean target))
    if up.head? = some dotdot then none
    else some (join (up.map (fun _ => dotdot) ++ down))

def within (root candidate : Text) : Bool :=
  match rel root candidate with
  | none => false
  | some path => path ≠ dotdot ∧ ¬ (dotdot ++ [slash]) <+: path ∧ isAbs path = false

def pathInvalid (message : String) : Except (ErrorCode × String) Unit :=
  .error (.other "WORKSPACE_PATH_INVALID", message)

def canonicalRelative (relative : Text) (allowRoot : Bool) : Except (ErrorCode × String) Unit :=
  if relative = [] then
    if allowRoot then .ok () else pathInvalid "empty path is not allowed"
  else if Utf8.valid relative = false then pathInvalid "workspace path is not UTF-8"
  else if backslash ∈ relative ∨ isAbs relative ∨ clean relative ≠ relative ∨ relative = dot then
    pathInvalid "workspace path is not canonical"
  else if ∃ part ∈ split relative, part = [] ∨ part = dot ∨ part = dotdot then
    pathInvalid "workspace path is not canonical"
  else .ok ()

/-- An element that names an entry. -/
def Proper (part : Text) : Prop := part ≠ [] ∧ part ≠ dot ∧ part ≠ dotdot

variable {root relative other : Text} {parts kept bases : List Text}

/-! ## Elements -/

theorem join_split (path : Text) : join (split path) = path := intercalate_splitOn slash

theorem split_append (path rest : Text) :
    split (path ++ slash :: rest) = split path ++ split rest := splitOn_append_cons_self ..

theorem split_cons (rest : Text) : split (slash :: rest) = [] :: split rest := split_append [] rest

theorem not_mem_of_mem_split (listed : part ∈ split path) : slash ∉ part := by
  induction path generalizing part with
  | nil => simp_all [split]
  | cons byte path ih =>
    obtain ⟨first, rest, parts⟩ := exists_cons_of_ne_nil (splitOn_ne_nil slash path)
    simp only [split, parts, splitOn_cons_eq_if_modifyHead, modifyHead_cons] at listed ih
    split at listed <;> grind

theorem join_append (first : bases ≠ []) (second : parts ≠ []) :
    join (bases ++ parts) = join bases ++ slash :: join parts := by
  induction bases with
  | nil => contradiction
  | cons base bases ih =>
    cases bases with
    | nil =>
      obtain ⟨part, rest, rfl⟩ := exists_cons_of_ne_nil second
      simp [join, intercalate_cons_cons]
    | cons next bases =>
      have later := ih (by simp)
      simp only [join, cons_append, intercalate_cons_cons] at later ⊢
      simp [later]

/-- Cleaning keeps every proper element. -/
theorem foldl_cleanStep (proper : ∀ part ∈ parts, Proper part) :
    parts.foldl (cleanStep rooted) kept = parts.reverse ++ kept := by
  induction parts generalizing kept with
  | nil => rfl
  | cons part parts ih =>
    obtain ⟨filled, notDot, notUp⟩ := proper part mem_cons_self
    rw [foldl_cons, ih fun other listed => proper other (mem_cons_of_mem part listed)]
    simp [cleanStep, filled, notDot, notUp]

theorem dropCommon_append (bases parts : List Text) :
    dropCommon bases (bases ++ parts) = ([], parts) := by
  induction bases with
  | nil => simp [dropCommon]
  | cons base bases ih => simpa [dropCommon] using ih

/-! ## What is accepted -/

theorem isAbs_cons (rest : Text) : isAbs (slash :: rest) = true := by simp [isAbs]

theorem isAbs_eq_false (proper : ∀ part ∈ split relative, Proper part) :
    isAbs relative = false := by
  by_contra absolute
  obtain ⟨rest, rfl⟩ : ∃ rest, relative = slash :: rest := by
    simpa [isAbs, head?_eq_some_iff] using absolute
  exact (proper [] (by simp [split_cons])).1 rfl

/-- Of all the checks, the ones on the bytes and on the elements decide. -/
theorem canonicalRelative_iff : canonicalRelative relative false = .ok () ↔
    Utf8.valid relative = true ∧ backslash ∉ relative ∧ ∀ part ∈ split relative, Proper part := by
  constructor
  · intro accepted
    simp only [canonicalRelative, pathInvalid, Bool.false_eq_true, if_false] at accepted
    split at accepted
    · cases accepted
    split at accepted
    · cases accepted
    next valid =>
    split at accepted
    · cases accepted
    next lexical =>
    split at accepted
    · cases accepted
    next named =>
    simp only [not_exists, not_and, not_or] at named lexical
    exact ⟨by simpa using valid, lexical.1, named⟩
  · rintro ⟨valid, plain, proper⟩
    have filled : relative ≠ [] := by
      rintro rfl
      exact (proper [] (by simp [split])).1 rfl
    have notDot : relative ≠ dot := by
      rintro rfl
      exact (proper dot (by decide)).2.1 rfl
    have cleaned : clean relative = relative := by
      simp [clean, isAbs_eq_false proper, elements, foldl_cleanStep proper, join_split, filled]
    have named : ¬ ∃ part ∈ split relative, part = [] ∨ part = dot ∨ part = dotdot := by
      rintro ⟨part, listed, empty | here | up⟩
      · exact (proper part listed).1 empty
      · exact (proper part listed).2.1 here
      · exact (proper part listed).2.2 up
    simp [canonicalRelative, filled, valid, plain, isAbs_eq_false proper, cleaned, notDot, named]

/-! ## Below a root -/

section

variable (absolute : isAbs root = true) (canonical : clean root = root)
include absolute canonical

/-- A joined path has the elements of the root before its own. -/
theorem filepathJoin_spec (proper : ∀ part ∈ split relative, Proper part) :
    isAbs (filepathJoin root relative) = true ∧
      clean (filepathJoin root relative) = filepathJoin root relative ∧
      elements (filepathJoin root relative) = elements root ++ split relative := by
  have spelled : root = slash :: join (elements root) := by
    simpa [clean, absolute] using canonical.symm
  have long : isAbs (root ++ slash :: relative) = true := by rw [spelled]; exact isAbs_cons _
  have both : elements (root ++ slash :: relative) = elements root ++ split relative := by
    rw [elements, long, split_append, foldl_append, foldl_cleanStep proper]
    simp [elements, absolute]
  have text : filepathJoin root relative = slash :: join (elements root ++ split relative) := by
    have filled : root ≠ [] := by rw [spelled]; simp
    simp [filepathJoin, filled, clean, long, both]
  have again : elements (filepathJoin root relative) = elements root ++ split relative := by
    by_cases top : elements root = []
    · rw [text, top, nil_append, join_split, elements, isAbs_cons, split_cons]
      simp [foldl_cleanStep proper, cleanStep]
    · rw [text, join_append top (by simp [split]), join_split, ← cons_append, ← spelled, both]
  refine ⟨by rw [text]; exact isAbs_cons _, ?_, again⟩
  rw [clean, again, text, isAbs_cons]
  simp

/-- The way from the root to a joined path is the path. -/
theorem rel_filepathJoin (proper : ∀ part ∈ split relative, Proper part) :
    filepathJoin root relative ≠ root ∧ rel root (filepathJoin root relative) = some relative := by
  obtain ⟨joined, cleaned, parts⟩ := filepathJoin_spec absolute canonical proper
  have below : filepathJoin root relative ≠ root := by
    intro same
    rw [same] at parts
    simp [split] at parts
  refine ⟨below, ?_⟩
  simp [rel, canonical, cleaned, below, absolute, joined, parts, dropCommon_append, join_split]

end

/-- The accepted paths are those made of proper elements. Joined to a clean absolute root they lead
to different places, all of them below it. -/
theorem canonical_paths :
    (∀ relative, canonicalRelative relative false = .ok () ↔
      Utf8.valid relative = true ∧ backslash ∉ relative ∧
        ∃ parts, parts ≠ [] ∧ relative = join parts ∧
          ∀ part ∈ parts, slash ∉ part ∧ Proper part) ∧
    ∀ root, isAbs root = true → clean root = root →
      (∀ relative, canonicalRelative relative false = .ok () →
        within root (filepathJoin root relative) = true ∧ filepathJoin root relative ≠ root) ∧
      ∀ relative other, canonicalRelative relative false = .ok () →
        canonicalRelative other false = .ok () →
        filepathJoin root relative = filepathJoin root other → relative = other := by
  constructor
  · intro relative
    rw [canonicalRelative_iff]
    refine and_congr_right fun _ => and_congr_right fun _ => ⟨?_, ?_⟩
    · intro proper
      exact ⟨split relative, by simp [split], (join_split relative).symm,
        fun part listed => ⟨not_mem_of_mem_split listed, proper part listed⟩⟩
    · rintro ⟨parts, some, rfl, proper⟩ part listed
      rw [split, join, splitOn_intercalate slash (fun part => (proper part · |>.1)) some]
        at listed
      exact (proper part listed).2
  intro root absolute canonical
  constructor
  · intro relative accepted
    obtain ⟨-, -, proper⟩ := canonicalRelative_iff.mp accepted
    obtain ⟨below, way⟩ := rel_filepathJoin absolute canonical proper
    refine ⟨?_, below⟩
    have notUp : relative ≠ dotdot := by
      rintro rfl
      exact (proper dotdot (by decide)).2.2 rfl
    have stays : ¬ (dotdot ++ [slash]) <+: relative := by
      rintro ⟨rest, rfl⟩
      rw [append_assoc, singleton_append, split_append] at proper
      exact (proper dotdot (mem_append_left _ (by decide))).2.2 rfl
    simp [within, way, notUp, stays, isAbs_eq_false proper]
  · intro relative other first second same
    have one := filepathJoin_spec absolute canonical (canonicalRelative_iff.mp first).2.2
    have two := filepathJoin_spec absolute canonical (canonicalRelative_iff.mp second).2.2
    rw [same, two.2.2, append_cancel_left_eq] at one
    rw [← join_split relative, ← join_split other, one.2.2]

/-- The path `a/b` below the root `/w`. -/
theorem canonical_paths_nested :
    within [47, 119] (filepathJoin [47, 119] [97, 47, 98]) = true ∧
      filepathJoin [47, 119] [97, 47, 98] ≠ [47, 119] :=
  (canonical_paths.2 [47, 119] (by decide) (by decide)).1 [97, 47, 98] (by rfl)

end CodexRemote.Paths
