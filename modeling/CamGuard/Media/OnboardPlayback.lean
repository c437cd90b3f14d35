/-
Playback listings of the V4 protocol (`onboard_playback_v34.py`): the parser of one
response, and the merge of the fragments of one listing.
-/
import CamGuard.Lib.Bytes
import CamGuard.Lib.Dict

namespace CamGuard.Media

def PLAYBACK_PROTOCOL_V4 : Nat := 4
def PLAYBACK_V4_RESPONSE_HEADER_SIZE : Nat := 26
def PLAYBACK_V4_ITEM_SIZE : Nat := 12
def MAX_RESPONSE_ITEMS : Nat := 200

/-- `ModernPlaybackFile`. -/
structure ModernPlaybackFile where
  startMs : Nat
  endMs : Nat
  durationMs : Nat
  nativeType : String
  deriving DecidableEq, Repr

/-- `ModernPlaybackPage`. -/
structure ModernPlaybackPage where
  pageIndex : Nat
  totalPages : Nat
  marker : Option Int
  items : List ModernPlaybackFile
  fragmentIndex : Option Nat := none
  fragmentCount : Option Nat := none
  deriving DecidableEq, Repr

/-- The errors of the parser and of the collection. -/
inductive PlaybackFault where
  | response
  | metadata
  | count
  | size
  | duration
  | empty
  | incomplete
  | inconsistent
  | gaps
  | items
  deriving DecidableEq, Repr

def PlaybackFault.reason : PlaybackFault → String
  | .response => "modern playback-list V4 response is invalid"
  | .metadata => "modern playback-list V4 fragment metadata is invalid"
  | .count => "modern playback-list V4 response exceeds bounded item count"
  | .size => "modern playback-list V4 response size is inconsistent"
  | .duration => "modern playback-list V4 item has an invalid duration"
  | .empty => "modern playback-list V4 fragments are empty"
  | .incomplete => "modern playback-list V4 fragment set is incomplete"
  | .inconsistent => "modern playback-list V4 fragments are inconsistent"
  | .gaps => "modern playback-list V4 fragment set has gaps"
  | .items => "modern playback-list V4 merged response exceeds bounded items"

/-! ## One response -/

/-- One round of the loop of `parse_modern_playback_list_v4_response`. -/
def parseV4Item (payload : Bytes) (baseTimeMs index : Nat) : Except PlaybackFault ModernPlaybackFile :=
  let offset := PLAYBACK_V4_RESPONSE_HEADER_SIZE + index * PLAYBACK_V4_ITEM_SIZE
  let startMs := baseTimeMs + payload.field 4 offset
  let durationMs := payload.field 4 (offset + 4)
  let flags := payload.field 4 (offset + 8)
  if durationMs = 0 ∨ 0x7FFFFFFFFFFFFFFF < startMs + durationMs then .error .duration
  else .ok ⟨startMs, startMs + durationMs, durationMs, toString (flags &&& 1)⟩

/-- The loop. -/
def parseV4Items (payload : Bytes) (baseTimeMs : Nat) : List Nat → Except PlaybackFault (List ModernPlaybackFile)
  | [] => .ok []
  | index :: indices =>
    match parseV4Item payload baseTimeMs index with
    | .error fault => .error fault
    | .ok item =>
      match parseV4Items payload baseTimeMs indices with
      | .error fault => .error fault
      | .ok items => .ok (item :: items)

/-- `parse_modern_playback_list_v4_response`. -/
def parseModernPlaybackListV4Response (payload : Bytes) : Except PlaybackFault ModernPlaybackPage :=
  if payload.length < PLAYBACK_V4_RESPONSE_HEADER_SIZE ∨ payload.at_ 0 ≠ PLAYBACK_PROTOCOL_V4 then .error .response
  else
    let fragmentCount := payload.at_ 1
    let fragmentIndex := payload.at_ 2
    let totalPages := payload.field 2 3
    let pageIndex := payload.field 2 5
    let baseTimeMs := payload.field 8 7
    let itemCount := payload.field 2 24
    if fragmentCount = 0 ∨ fragmentCount ≤ fragmentIndex then .error .metadata
    else if MAX_RESPONSE_ITEMS < itemCount then .error .count
    else if payload.length ≠ PLAYBACK_V4_RESPONSE_HEADER_SIZE + itemCount * PLAYBACK_V4_ITEM_SIZE then .error .size
    else
      match parseV4Items payload baseTimeMs (List.range itemCount) with
      | .error fault => .error fault
      | .ok items => .ok ⟨pageIndex, totalPages, none, items, some fragmentIndex, some fragmentCount⟩

/-! ## A listing -/

/-- The loop of `merge_modern_playback_v4_fragments`. -/
def indexFragments (first : ModernPlaybackPage) (expectedCount : Nat) :
    List ModernPlaybackPage → Dict Nat ModernPlaybackPage → Except PlaybackFault (Dict Nat ModernPlaybackPage)
  | [], indexed => .ok indexed
  | fragment :: fragments, indexed =>
    match fragment.fragmentIndex with
    | none => .error .inconsistent
    | some index =>
      if fragment.fragmentCount ≠ some expectedCount ∨ indexed.contains index = true ∨
          fragment.pageIndex ≠ first.pageIndex ∨ fragment.totalPages ≠ first.totalPages then .error .inconsistent
      else indexFragments first expectedCount fragments (indexed.set index fragment)

/-- `merge_modern_playback_v4_fragments`. -/
def mergeModernPlaybackV4Fragments (fragments : List ModernPlaybackPage) : Except PlaybackFault ModernPlaybackPage :=
  match fragments with
  | [] => .error .empty
  | first :: _ =>
    match first.fragmentCount with
    | none => .error .incomplete
    | some expectedCount =>
      if fragments.length ≠ expectedCount ∨ 64 < expectedCount then .error .incomplete
      else
        match indexFragments first expectedCount fragments ∅ with
        | .error fault => .error fault
        | .ok indexed =>
          if ¬((∀ index ∈ indexed.keys, index < expectedCount) ∧
              ∀ index ∈ List.range expectedCount, indexed.contains index = true) then .error .gaps
          else
            let items := (List.range expectedCount).flatMap fun index =>
              ((indexed.get? index).map ModernPlaybackPage.items).getD []
            if 1000 < items.length then .error .items
            else .ok ⟨first.pageIndex, first.totalPages, none, items, some (expectedCount - 1), some expectedCount⟩

end CamGuard.Media
