/-
PraxisGrid/Gateway/Bodies.lean

The stored state that a Responses create body names:
`pinned_fields` in `crates/gateway/crates/ai-grid-filters/src/pin.rs` and `read_body` in
`route.rs` of the same crate.

Two fields may hold a tagged id, `previous_response_id` and `conversation`, and the second as a
string or as an object.  Every tagged id is stripped in place, and the first one pins the request.
The keys of the prompt that `read_body` also computes are left out; a body that is not text is not
parsed and has no model here.
-/
import Mathlib.Data.List.Pairwise
import Mathlib.Data.List.Sort
import PraxisGrid.Gateway.Tags

namespace PraxisGrid.Gateway

open Json (RawValue)

/-! ### Reading a body -/

/-- The fields of a Responses create body that name stored state. -/
structure Responses where
  previousResponseId : Option RawValue
  conversation : Option RawValue

def optional (value : RawValue) : Option RawValue :=
  if value.text = "null".toList then none else some value

/-- A field of an object: a repeated one is an error. -/
def field (members : List (List Char × RawValue)) (name : String) : Option (Option RawValue) :=
  match members.filter fun member => member.1 = name.toList with
  | [] => some none
  | [(_, value)] => some (optional value)
  | _ => none

def conversationRef (text : List Char) : Option RawValue :=
  match Json.object text with
  | some members =>
    match members.filter fun member => member.1 = "id".toList with
    | [(_, value)] => some value
    | _ => none
  | none =>
    match Json.array text with
    | some [value] => some value
    | _ => none

/-- The token of a conversation: the id inside an object, or the value itself. -/
def conversationToken (value : RawValue) : RawValue :=
  match conversationRef value.text with
  | some inner => ⟨value.start + inner.start, inner.text⟩
  | none => value

/-- The tokens that may hold an id, in the order they are looked at. -/
def Responses.tokens (request : Responses) : List RawValue :=
  request.previousResponseId.toList ++ (request.conversation.map conversationToken).toList

/-! ### Stripping the tags -/

/-- A part of a body and what replaces it. -/
structure Edit where
  start : Nat
  stop : Nat
  replacement : List Char

/-- The part of a body between two positions. -/
def slice (body : List Char) (start stop : Nat) : Option (List Char) :=
  if start ≤ stop ∧ stop ≤ body.length then some ((body.drop start).take (stop - start)) else none

def span (body : List Char) (token : RawValue) : Option (Nat × Nat) :=
  if token.stop ≤ body.length then some (token.start, token.stop) else none

/-- The site and cluster mark a create body is pinned to. -/
structure BodyPin where
  site : List Char
  mark : List Char

def Pinned.pin (pinned : Pinned) : BodyPin := ⟨pinned.site, pinned.mark⟩

/-- Where stored state lives: its site, and its cluster's mark when an id names one. -/
structure Holder where
  site : String
  mark : Option (List Char) := none

/-- This filter's state of one request. -/
structure RouteState where
  served : Option (String × String) := none
  pinned : Option Holder := none
  responses : Bool := false

def BodyPin.holder (pin : BodyPin) : Holder := ⟨String.ofList pin.site, some pin.mark⟩

/-- Two values that do not overlap. -/
def Disjoint (a b : RawValue) : Prop := a.stop ≤ b.start ∨ b.stop ≤ a.start

variable {value : RawValue}

open List

variable {members : List (List Char × RawValue)}

variable {body : List Char}

/-- What a body is parsed to: two slices of it that do not overlap. -/
structure Parsed (body : List Char) (request : Responses) : Prop where
  previous : ∀ value ∈ request.previousResponseId, Json.Slice body value
  conversation : ∀ value ∈ request.conversation, Json.Slice body value
  disjoint : ∀ a ∈ request.previousResponseId, ∀ b ∈ request.conversation, Disjoint a b

variable {request : Responses}

theorem slice_trans {outer inner : RawValue} (hot : Json.Slice body outer)
    (hir : Json.Slice outer.text inner) :
    Json.Slice body ⟨outer.start + inner.start, inner.text⟩ := by
  obtain ⟨before, after, rfl, hst⟩ := hot
  obtain ⟨inside, beyond, heq, hin⟩ := hir
  refine ⟨before ++ inside, beyond ++ after, ?_, ?_⟩
  · rw [heq]
    simp only [append_assoc]
  · rw [length_append, hst, hin]

theorem slice_conversationRef {text : List Char} {inner : RawValue}
    (h : conversationRef text = some inner) : Json.Slice text inner := by
  unfold conversationRef at h
  split at h
  · rename_i members hob
    split at h
    · rename_i key value heq
      cases h
      have hmem : (key, inner) ∈ members.filter fun member => member.1 = "id".toList := by
        rw [heq]
        exact mem_singleton_self _
      exact (Json.object_spans hob).slice inner
        (mem_map_of_mem (mem_of_mem_filter hmem))
    · cases h
  · split at h
    · rename_i value har
      cases h
      exact (Json.array_spans har).slice inner (mem_singleton_self _)
    · cases h

theorem conversationToken_within (h : Json.Slice body value) :
    Json.Slice body (conversationToken value) ∧ value.start ≤ (conversationToken value).start
      ∧ (conversationToken value).stop ≤ value.stop := by
  unfold conversationToken
  split
  · rename_i inner hin
    have hsl := slice_conversationRef hin
    have hst := hsl.stop_le
    refine ⟨slice_trans h hsl, Nat.le_add_right _ _, ?_⟩
    simp only [RawValue.stop] at hst ⊢
    omega
  · exact ⟨h, le_rfl, le_rfl⟩

/-- **The tokens are disjoint parts of the body.** -/
theorem Parsed.tokens (h : Parsed body request) :
    (∀ token ∈ request.tokens, Json.Slice body token) ∧ request.tokens.Pairwise Disjoint := by
  have hcn : ∀ token ∈ (request.conversation.map conversationToken).toList,
      ∃ value ∈ request.conversation, token = conversationToken value := by
    intro token htk
    obtain ⟨value, hvl, rfl⟩ := Option.map_eq_some_iff.mp (Option.mem_toList.mp htk)
    exact ⟨value, hvl, rfl⟩
  refine ⟨?_, ?_⟩
  · intro token htk
    rcases mem_append.mp htk with hpr | hls
    · exact h.previous token (Option.mem_toList.mp hpr)
    · obtain ⟨value, hvl, rfl⟩ := hcn token hls
      exact (conversationToken_within (h.conversation value hvl)).1
  · refine pairwise_append.mpr ⟨?_, ?_, ?_⟩
    · cases request.previousResponseId with
      | none => exact Pairwise.nil
      | some value => exact pairwise_singleton _ _
    · cases request.conversation with
      | none => exact Pairwise.nil
      | some value => exact pairwise_singleton _ _
    · intro a ha b hb
      obtain ⟨value, hvl, rfl⟩ := hcn b hb
      obtain ⟨_, hst, hsp⟩ := conversationToken_within (h.conversation value hvl)
      rcases h.disjoint a (Option.mem_toList.mp ha) value hvl with hpre | haf
      · exact .inl (hpre.trans hst)
      · exact .inr (hsp.trans haf)

variable {digests : Digests}

def Edit.pair (body : List Char) (edit : Edit) : List Char × List Char :=
  ((body.drop edit.start).take (edit.stop - edit.start), edit.replacement)

/-- Digests for runs on fixed inputs. -/
def Digests.plain : Digests where
  xxh64 bytes seed := bytes.foldl (fun hash byte => hash * 31 + byte.toUInt64 * 0x100000000) seed
  hmacSha256 key message :=
    Vector.ofFn fun i => (message.foldl (fun hash byte => hash * 31 + byte) (key.length.toUInt8))
      + i.val.toUInt8

end PraxisGrid.Gateway
