import CodexRemote.Translation

/-!
# Paths of local images

A user message refers to an image by a path on the Host, and the client is shown what a resolver
makes of it. The translation otherwise falls back on rendering JSON values as text. Two messages
that differ in such paths only, where the resolver answers alike, are translated to one item.
-/
namespace CodexRemote.Translation

open Protocol Adapter List Option

variable {library : Library} {resolve : Option Resolver} {budget : Nat} {left right : Body}

/-- An entry for a local image. -/
def LocalImage (body : Body) : Prop :=
  firstString body ["type", "kind"] ∈ ["localImage", "local_image"] ∧
    firstString body ["path"] ≠ ""

/-- One entry of a list with its path, if it is an image's, filled in in two ways. -/
inductive Filled (resolve : Option Resolver) : Json → Json → Prop
  | same (value : Json) : Filled resolve value value
  | image (left right : Body) (first : LocalImage left) (second : LocalImage right)
      (others : ∀ key, key ≠ "path" → member left key = member right key)
      (alike : ∀ resolver ∈ resolve, resolver.describe (firstString left ["path"]) =
        resolver.describe (firstString right ["path"])) :
      Filled resolve (.object left) (.object right)

/-- Two bodies that differ in the paths of their listed images only. -/
structure Twins (resolve : Option Resolver) (left right : Body) : Prop where
  others : ∀ key, key ∉ ["input", "content"] → member left key = member right key
  lists : ∀ key ∈ ["input", "content"], member left key = member right key ∨
    ∃ first second, member left key = some (.array first) ∧
      member right key = some (.array second) ∧ List.Forall₂ (Filled resolve) first second

theorem firstString_congr {keys : List String}
    (same : ∀ key ∈ keys, member left key = member right key) :
    firstString left keys = firstString right keys := by
  unfold firstString
  induction keys with
  | nil => rfl
  | cons key rest ih =>
    have later := ih fun other listed => same other (mem_cons_of_mem key listed)
    simp only [findSome?_cons, same key mem_cons_self]
    split
    · rfl
    · exact later

/-- What is shown of an entry does not depend on its path. -/
theorem inputPart_filled {first second : Json} (filled : Filled resolve first second) :
    (inputPart library first).map (messagePart resolve budget) =
      (inputPart library second).map (messagePart resolve budget) := by
  cases filled with
  | same => rfl
  | image left right first second others alike =>
    have image : ∀ {body : Body}, LocalImage body →
        inputPart library (.object body) = some (.localImage (firstString body ["path"])) := by
      rintro body ⟨type, path⟩
      simp_all [inputPart]
    rw [image first, image second]
    cases resolve with
    | none => rfl
    | some resolver => simp [messagePart, alike resolver rfl]

/-- What is shown of the list under a key. -/
def shownParts (library : Library) (resolve : Option Resolver) (budget : Nat) (body : Body)
    (key : String) : List (List UserMessagePart × Option Completeness) :=
  ((anySlice (member body key)).filterMap (inputPart library)).map (messagePart resolve budget)

theorem shownParts_twins (twins : Twins resolve left right) {key : String}
    (listed : key ∈ ["input", "content"]) :
    shownParts library resolve budget left key = shownParts library resolve budget right key := by
  unfold shownParts
  obtain same | ⟨first, second, one, two, filled⟩ := twins.lists key listed
  · rw [same]
  rw [one, two, map_filterMap, map_filterMap]
  unfold anySlice
  clear one two
  induction filled with
  | nil => rfl
  | cons entry _ ih => simp only [filterMap_cons, inputPart_filled entry, ih]

/-- A list without parts makes the translation look elsewhere. -/
theorem inputParts_shown (body : Body) :
    (inputParts library body).map (messagePart resolve budget) =
      if shownParts library resolve budget body "input" ≠ [] then
        shownParts library resolve budget body "input"
      else if shownParts library resolve budget body "content" ≠ [] then
        shownParts library resolve budget body "content"
      else if firstText library body ["text", "message"] ≠ "" then
        [messagePart resolve budget (.text (firstText library body ["text", "message"]))]
      else [] := by
  simp only [inputParts, shownParts, ne_eq, map_eq_nil_iff, apply_ite (map _),
    map_singleton, map_nil]

/-- Two user messages that differ in the paths of their images only, which the resolver describes
alike, are one item to the client. -/
theorem private_paths_hidden (library : Library) (resolve : Option Resolver) (left right : Params)
    (turnID fallbackID method : String) (semantic : Codexes.Semantic) (status : ItemStatus)
    (budget : Nat) (provenance : ProvenanceKind)
    (message : library.lower (firstString (within (rawObject left) "item") ["type", "kind"]) ∈
      ["usermessage", "user_message"] ∨ contains (library.lower method) "usermessage")
    (twins : Twins resolve (within (rawObject left) "item") (within (rawObject right) "item")) :
    translateItem library resolve left turnID fallbackID method semantic status budget provenance =
      translateItem library resolve right turnID fallbackID method semantic status budget
        provenance := by
  have fields : ∀ keys : List String, (∀ key ∈ keys, key ∉ ["input", "content"]) →
      firstString (within (rawObject left) "item") keys =
        firstString (within (rawObject right) "item") keys :=
    fun keys apart => firstString_congr fun key listed => twins.others key (apart key listed)
  unfold translateItem
  simp only [fields ["type", "kind"] (by simp), fields ["status"] (by simp),
    fields ["id", "itemId"] (by simp), fields ["turnId"] (by simp)] at message ⊢
  have texts : firstText library (within (rawObject left) "item") ["text", "message"] =
      firstText library (within (rawObject right) "item") ["text", "message"] := by
    simp only [firstText, filterMap_cons, filterMap_nil, twins.others "text" (by simp),
      twins.others "message" (by simp)]
  simp only [translateContent, if_pos message, userMessage, inputParts_shown, texts,
    shownParts_twins twins (by simp : "input" ∈ _),
    shownParts_twins twins (by simp : "content" ∈ _)]

/-- A text, an image under the given path, and one that is lost. -/
def imageMessage (path : String) : Params :=
  { raw := [], value := some (.object [("type", .string "usermessage"), ("content", .array
      [.string "look", .object [("type", .string "localImage"), ("path", .string path)],
        .object [("type", .string "localImage"), ("path", .string "/lost")]])]) }

/-- One picture under every path but the lost one's. -/
def pictureResolver : Resolver where
  describe path := if path = "/lost" then none else
    some { attachmentId := "att", filename := text "a.png", mimeType := "image/png"
           sizeBytes := 3, sha256 := "", widthPixels := none, heightPixels := none }
  valid path descriptor described := by
    split at described <;> cases described
    decide +kernel

/-- The client is shown the text and the picture, and that one is missing. -/
theorem private_paths_hidden_image :
    ∃ item, translateItem sampleLibrary (some pictureResolver) (imageMessage "/one") "" "" ""
        .unknown .unspecified 8 .unspecified = item ∧
      translateItem sampleLibrary (some pictureResolver) (imageMessage "/two") "" "" ""
        .unknown .unspecified 8 .unspecified = item ∧
      (∃ descriptor, item.content =
        .userMessage [.text (text "look"), .image descriptor]) ∧
      item.completeness.map (·.incomplete) = some true := by
  refine ⟨_, rfl, (private_paths_hidden _ _ _ _ _ _ _ _ _ _ _ (.inl ?_) ⟨?_, ?_⟩).symm,
    ⟨(pictureResolver.describe "/one").get (by decide), ?_⟩, ?_⟩
  · decide +kernel
  · intro key apart
    have other : "content" ≠ key := fun same => apart (by simp [← same])
    simp [imageMessage, rawObject, within, member, other]
  · intro key listed
    obtain rfl | rfl : key = "input" ∨ key = "content" := by simpa using listed
    · exact .inl rfl
    refine .inr ⟨_, _, rfl, rfl, .cons (.same _) (.cons (.image _ _ ⟨by decide, by decide⟩
      ⟨by decide, by decide⟩ ?_ ?_) (.cons (.same _) .nil))⟩
    · intro key other
      simp [member, Ne.symm other]
    · rintro _ ⟨⟩
      rfl
  · decide +kernel
  · decide +kernel

end CodexRemote.Translation
