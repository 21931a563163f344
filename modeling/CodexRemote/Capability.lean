import Mathlib.Algebra.Order.Ring.Int
import Mathlib.Data.String.Basic

/-!
# The advertised payload limits

`WorkspaceCapabilitiesForFrame` and `ImageAttachmentCapabilitiesForFrame` derive the limits from the
size of a frame. The limits are on the payload, the frame holds its encoding: a text is escaped, and
binary content is base64 with padding. Sizes are numbers below `2 ^ 64`; they are divided and
compared only, so nothing wraps.
-/
namespace CodexRemote.Capability

structure WorkspaceCapabilities where
  maxTextFileBytes : Nat := 512 * 2 ^ 10
  maxInlineUploadBytes : Nat := 2 * 2 ^ 20
  maxInlineDownloadBytes : Nat := 2 * 2 ^ 20
  maxArchiveExpandedBytes : Nat := 32 * 2 ^ 20
  maxArchiveEntryCount : Nat := 1000

def workspaceCapabilitiesForFrame (maxFrameBytes : Nat) : Option WorkspaceCapabilities :=
  if maxFrameBytes < 8 then none
  else
    let caps : WorkspaceCapabilities := {}
    some
      { caps with
        maxTextFileBytes := min caps.maxTextFileBytes (maxFrameBytes / 8)
        maxInlineUploadBytes := min caps.maxInlineUploadBytes (maxFrameBytes / 2)
        maxInlineDownloadBytes := min caps.maxInlineDownloadBytes (maxFrameBytes / 2) }

/-- The upload limit of images. -/
def imageAttachmentCapabilitiesForFrame (maxFrameBytes : Nat) : Option Nat :=
  if maxFrameBytes < 2 then none else some (min (2 * 2 ^ 20) (maxFrameBytes / 2))

/-- The bytes of a character in a JSON string. -/
def escapeWidth (char : Char) : Nat :=
  if char.val < 0x20 then 6 else if char = '"' ∨ char = '\\' then 2 else char.utf8Size

/-- The bytes of a text in a JSON string, without the quotes. -/
def escapedSize (content : String) : Nat := (content.toList.map escapeWidth).sum

/-- The bytes of padded base64. -/
def base64Size (size : Nat) : Nat := (size + 2) / 3 * 4

theorem escapeWidth_le (char : Char) : escapeWidth char ≤ 6 * char.utf8Size := by
  have positive := char.utf8Size_pos
  unfold escapeWidth
  split
  · omega
  · split <;> omega

/-- Escaping makes a text at most six times as long. -/
theorem escapedSize_le (content : String) : escapedSize content ≤ 6 * content.utf8ByteSize := by
  have chars : ∀ chars : List Char,
      (chars.map escapeWidth).sum ≤ 6 * String.utf8Len chars := by
    intro chars
    induction chars with
    | nil => exact Nat.le_refl 0
    | cons char rest ih =>
      have first := escapeWidth_le char
      simp only [List.map_cons, List.sum_cons, String.utf8Len_cons]
      omega
  have size := String.utf8ByteSize_ofList content.toList
  rw [String.ofList_toList] at size
  rw [size]
  exact chars content.toList

/-- For every frame limit from eight bytes on, whatever keeps to an advertised limit leaves a
quarter of the frame, less four bytes, to everything else. -/
theorem payloads_fit_frames (maxFrameBytes : Nat) (allowed : 8 ≤ maxFrameBytes) :
    ∃ caps images, workspaceCapabilitiesForFrame maxFrameBytes = some caps ∧
      imageAttachmentCapabilitiesForFrame maxFrameBytes = some images ∧
      (∀ content : String, content.utf8ByteSize ≤ caps.maxTextFileBytes →
        escapedSize content ≤ 3 * maxFrameBytes / 4 ∧
        ∀ rest : Nat, (rest : Int) ≤ maxFrameBytes / 4 - 4 →
          escapedSize content + rest ≤ maxFrameBytes) ∧
      ∀ size, size ≤ caps.maxInlineUploadBytes ∨ size ≤ caps.maxInlineDownloadBytes ∨
          size ≤ images →
        base64Size size ≤ 2 * maxFrameBytes / 3 + 4 ∧
        ∀ rest : Nat, (rest : Int) ≤ maxFrameBytes / 4 - 4 →
          base64Size size + rest ≤ maxFrameBytes := by
  refine ⟨_, _, if_neg (Nat.not_lt_of_le allowed), if_neg (by omega), ?_, ?_⟩
  · intro content within
    have small : content.utf8ByteSize ≤ maxFrameBytes / 8 := within.trans (Nat.min_le_right _ _)
    have grown := escapedSize_le content
    refine ⟨by omega, ?_⟩
    intro rest left
    omega
  · intro size within
    have small : size ≤ maxFrameBytes / 2 := by
      rcases within with upload | download | image
      · exact upload.trans (Nat.min_le_right _ _)
      · exact download.trans (Nat.min_le_right _ _)
      · exact image.trans (Nat.min_le_right _ _)
    unfold base64Size
    refine ⟨by omega, ?_⟩
    intro rest left
    omega

/-- The smallest frame holds one control character or four bytes. -/
theorem payloads_fit_frames_least : 8 ≤ 8 ∧
    (∃ caps images, workspaceCapabilitiesForFrame 8 = some caps ∧
      imageAttachmentCapabilitiesForFrame 8 = some images ∧
      caps.maxTextFileBytes = 1 ∧ escapedSize "\x00" = 6 ∧ escapedSize "\x00" ≤ 3 * 8 / 4) := by
  obtain ⟨caps, images, work, image, texts, -⟩ := payloads_fit_frames 8 (by decide)
  have one : caps.maxTextFileBytes = 1 := by
    cases work
    rfl
  refine ⟨by decide, caps, images, work, image, one, by decide, (texts "\x00" ?_).1⟩
  rw [one]
  decide

end CodexRemote.Capability
