/-
PraxisGrid/Gateway/Tagger.lean

The scanner that tags the ids of a response body, chunk by chunk:
`Tagger` in `crates/gateway/crates/ai-grid-filters/src/pin.rs`.

It follows strings, keys and nesting across the chunks and holds a string back while it cannot
yet tell an untagged id from a tagged one.  `Tagged` says what it may do to a stream: put the tag
in after an opening quote and an id prefix that the tag does not follow already.

The loop takes one turn after the other (`Tagger.push_eq`), and no turn depends on what follows the
chunk (`Tagger.scanner`), so the cuts between the chunks leave no trace in what is sent.
-/
import PraxisGrid.Gateway.Tags
import PraxisGrid.Lib.Pieces
import PraxisGrid.Lib.Run

namespace PraxisGrid.Gateway

/-! ### The scanner -/

/-- The JSON keys whose values are stored-state ids. -/
def idKeys : List (List UInt8) :=
  ["id", "previous_response_id", "response_id", "conversation", "conversation_id"].map fun key =>
    utf8 key.toList

/-- Keys whose object value is still the response's own. -/
def ownKeys : List (List UInt8) := ["response", "conversation"].map fun key => utf8 key.toList

/-- The longest key worth remembering. -/
def keyLimit : Nat := 20

/-- A string of at most `keyLimit` bytes, with the count of the bytes seen. -/
structure Short where
  bytes : List UInt8 := []
  len : Nat := 0

def Short.push (short : Short) (byte : UInt8) : Short :=
  { bytes := if short.len < keyLimit then short.bytes ++ [byte] else short.bytes
    len := short.len + 1 }

/-- The string, none when it was too long to keep. -/
def Short.get (short : Short) : Option (List UInt8) :=
  if short.len ≤ keyLimit then some short.bytes else none

structure Tagger where
  tag : List UInt8
  last : UInt8 := 0
  inString : Bool := false
  escaped : Bool := false
  current : Short := {}
  key : Option Short := none
  held : List UInt8 := []
  depth : Nat := 0
  ownDepth : Nat := 0

def Tagger.new (tag : List Char) : Tagger := { tag := utf8 tag }

def quote : UInt8 := 34

/-- What to do with a string that opens. -/
inductive Open
  | wait
  | tag (start : List UInt8)
  | plain

/-- Where a chunk takes a tag, and where the bytes held back begin. -/
structure Plan where
  inserts : List Nat := []
  hold : Option Nat := none

def isAsciiWhitespace (byte : UInt8) : Bool :=
  byte = 32 || byte = 9 || byte = 10 || byte = 12 || byte = 13

def Tagger.named (tagger : Tagger) (keys : List (List UInt8)) : Bool :=
  tagger.last = 58 && (tagger.key.bind Short.get).any fun key => keys.contains key

/-- Follow an object or array that opens or closes. -/
def Tagger.nest (tagger : Tagger) (byte : UInt8) : Tagger :=
  if byte = 123 ∨ byte = 91 then
    let own := tagger.depth = 0 || (tagger.ownDepth = tagger.depth && tagger.named ownKeys)
    let depth := tagger.depth + 1
    { tagger with depth := depth, ownDepth := if own then depth else tagger.ownDepth }
  else if byte = 125 ∨ byte = 93 then
    { tagger with
      ownDepth := if tagger.ownDepth = tagger.depth then tagger.ownDepth - 1 else tagger.ownDepth
      depth := tagger.depth - 1 }
  else tagger

def Tagger.stringByte (tagger : Tagger) (byte : UInt8) : Tagger :=
  if tagger.escaped then
    { tagger with escaped := false, current := tagger.current.push byte }
  else if byte = 92 then
    { tagger with escaped := true, current := tagger.current.push byte }
  else if byte = quote then
    { tagger with inString := false, last := quote, key := some tagger.current }
  else { tagger with current := tagger.current.push byte }

/-- The first prefix that decides what is done with a string. -/
def openPrefix (tag after : List UInt8) (ending : Bool) : List (List UInt8) → Open
  | [] => .plain
  | start :: starts =>
    let tagged := start ++ tag
    if !ending && after.length < tagged.length && after.isPrefixOf tagged then .wait
    else if start.isPrefixOf after && !tagged.isPrefixOf after then .tag start
    else openPrefix tag after ending starts

/-- What to do with a string that opens before `after`. -/
def Tagger.open (tagger : Tagger) (after : List UInt8) (ending : Bool) : Open :=
  let own := tagger.depth > 0 && tagger.ownDepth = tagger.depth
  if own && tagger.named idKeys then openPrefix tagger.tag after ending (idPrefixes.map utf8)
  else .plain

/-- Follow the input from a position on, one byte or one opening quote with its prefix a turn. -/
def scanLoop (input : List UInt8) (ending : Bool) : Nat → Tagger → Nat → Plan → Tagger × Plan
  | 0, tagger, _, plan => (tagger, plan)
  | fuel + 1, tagger, i, plan =>
    match input.drop i with
    | [] => (tagger, plan)
    | byte :: after =>
      if !tagger.inString && byte = quote then
        match tagger.open after ending with
        | .wait => (tagger, { plan with hold := some i })
        | .tag start =>
          let i := i + 1 + start.length
          scanLoop input ending fuel { tagger with inString := true, current := {} } i
            { plan with inserts := plan.inserts ++ [i] }
        | .plain =>
          scanLoop input ending fuel { tagger with inString := true, current := {} } (i + 1) plan
      else if tagger.inString then
        scanLoop input ending fuel (tagger.stringByte byte) (i + 1) plan
      else if !isAsciiWhitespace byte then
        scanLoop input ending fuel { tagger.nest byte with last := byte } (i + 1) plan
      else scanLoop input ending fuel tagger (i + 1) plan

def Tagger.scan (tagger : Tagger) (input : List UInt8) (ending : Bool) : Tagger × Plan :=
  scanLoop input ending (input.length + 1) tagger 0 {}

/-- The input from a position to another, with the tag at each insert between. -/
def emitLoop (tag input : List UInt8) : Nat → List Nat → Nat → List UInt8
  | start, [], stop => (input.drop start).take (stop - start)
  | start, i :: inserts, stop =>
    (input.drop start).take (i - start) ++ (tag ++ emitLoop tag input i inserts stop)

/-- The bytes sent for an input, and the tagger with the rest held back. -/
def Tagger.emit (tagger : Tagger) (input : List UInt8) (plan : Plan) : Tagger × List UInt8 :=
  let out := emitLoop tagger.tag input 0 plan.inserts (plan.hold.getD input.length)
  match plan.hold with
  | some hold => ({ tagger with held := input.drop hold }, out)
  | none => (tagger, out)

/-- Tag the ids in a chunk, and what is sent for it. -/
def Tagger.push (tagger : Tagger) (chunk : List UInt8) (ending : Bool) : Tagger × List UInt8 :=
  if tagger.held.isEmpty then
    let (scanned, plan) := tagger.scan chunk ending
    if plan.inserts.isEmpty && plan.hold.isNone then (scanned, chunk)
    else scanned.emit chunk plan
  else
    let input := tagger.held ++ chunk
    let (scanned, plan) := { tagger with held := [] : Tagger }.scan input ending
    scanned.emit input plan

/-- A whole response, its last chunk pushed as the end. -/
def Tagger.run (tagger : Tagger) : List (List UInt8) → List UInt8
  | [] => []
  | [chunk] => (tagger.push chunk true).2
  | chunk :: chunks =>
    let (tagger, sent) := tagger.push chunk false
    sent ++ tagger.run chunks

/-! ### What may be done to a stream -/

/-- `out` is `stream` with the tag put in after some opening quotes that an id prefix follows, and
the tag does not follow already. -/
inductive Tagged (tag : List UInt8) : List UInt8 → List UInt8 → Prop
  | nil : Tagged tag [] []
  | byte (byte : UInt8) {stream out : List UInt8} :
      Tagged tag stream out → Tagged tag (byte :: stream) (byte :: out)
  | id {start stream out : List UInt8} : start ∈ idPrefixes.map utf8 → ¬tag <+: stream →
      Tagged tag stream out →
      Tagged tag (quote :: (start ++ stream)) (quote :: (start ++ (tag ++ out)))

/-! ### Turns -/

section Prefixes

variable {tag after start : List UInt8} {starts : List (List UInt8)} {ending : Bool}

theorem openPrefix_tag (h : openPrefix tag after ending starts = .tag start) :
    start ∈ starts ∧ start <+: after ∧ ¬start ++ tag <+: after := by
  induction starts with
  | nil => cases h
  | cons first starts ih =>
    rw [openPrefix] at h
    split_ifs at h with hwt htag
    · cases h
      rw [Bool.and_eq_true, Bool.not_eq_true', ← Bool.not_eq_true, List.isPrefixOf_iff_prefix,
        List.isPrefixOf_iff_prefix] at htag
      exact ⟨List.mem_cons_self, htag⟩
    · exact ⟨List.mem_cons_of_mem _ (ih h).1, (ih h).2⟩

/-- A string that waits is shorter than a prefix with the tag, and the response goes on. -/
theorem openPrefix_wait (h : openPrefix tag after ending starts = .wait) :
    ending = false ∧ ∃ start ∈ starts, after.length < (start ++ tag).length := by
  induction starts with
  | nil => cases h
  | cons first starts ih =>
    rw [openPrefix] at h
    split_ifs at h with hwt htag
    · simp only [Bool.and_eq_true, Bool.not_eq_true', decide_eq_true_eq] at hwt
      exact ⟨hwt.1.1, first, List.mem_cons_self, hwt.1.2⟩
    · obtain ⟨hen, start, hmem, hlt⟩ := ih h
      exact ⟨hen, start, List.mem_cons_of_mem _ hmem, hlt⟩

/-- **What was decided is decided for whatever follows.** -/
theorem openPrefix_append (h : openPrefix tag after false starts ≠ .wait) (more : List UInt8) :
    openPrefix tag (after ++ more) ending starts = openPrefix tag after false starts := by
  induction starts with
  | nil => rfl
  | cons first starts ih =>
    rw [openPrefix, openPrefix]
    rw [openPrefix] at h
    by_cases hwt : (!false && decide (after.length < (first ++ tag).length) &&
        after.isPrefixOf (first ++ tag)) = true
    · exact absurd (if_pos hwt) h
    rw [if_neg hwt] at h ⊢
    simp only [Bool.not_false, Bool.true_and, Bool.and_eq_true, decide_eq_true_eq,
      List.isPrefixOf_iff_prefix, not_and_or, Nat.not_lt] at hwt
    have hws : ¬(!ending && decide ((after ++ more).length < (first ++ tag).length) &&
        (after ++ more).isPrefixOf (first ++ tag)) = true := by
      simp only [Bool.and_eq_true, decide_eq_true_eq, List.isPrefixOf_iff_prefix, List.length_append]
      rintro ⟨⟨-, hlt⟩, hpr⟩
      rcases hwt with hln | hot
      · rw [List.length_append] at hln
        omega
      · exact hot ((List.prefix_append after more).trans hpr)
    -- a prefix of the tagged prefix that shows in the longer bytes shows in the shorter ones
    have hsh : ∀ part, part <+: first ++ tag →
        (part <+: after ++ more ↔ part <+: after) := by
      intro part hpr
      refine ⟨fun h => ?_, fun h => h.trans (List.prefix_append after more)⟩
      rcases Nat.le_total part.length after.length with hle | hle
      · exact List.prefix_of_prefix_length_le h (List.prefix_append after more) hle
      · have hpre := List.prefix_of_prefix_length_le (List.prefix_append after more) h hle
        rcases hwt with hln | hot
        · have heq := hpre.eq_of_length (Nat.le_antisymm hle (hpr.length_le.trans hln))
          rw [heq]
        · exact absurd (hpre.trans hpr) hot
    have hfr := hsh first (List.prefix_append first tag)
    have htg := hsh _ (List.prefix_refl (first ++ tag))
    rw [← List.isPrefixOf_iff_prefix, ← List.isPrefixOf_iff_prefix, ← Bool.eq_iff_iff]
      at hfr htg
    rw [if_neg hws, hfr, htg]
    split_ifs at h ⊢
    · rfl
    · exact ih h

end Prefixes

/-- One turn of the scanner: none if it waits. -/
def Tagger.turn (ending : Bool) (tagger : Tagger) (byte : UInt8) (after : List UInt8) :
    Option (Tagger × List UInt8 × List UInt8) :=
  if !tagger.inString && byte = quote then
    match tagger.open after ending with
    | .wait => none
    | .tag start => some ({ tagger with inString := true, current := {} },
        byte :: (start ++ tagger.tag), after.drop start.length)
    | .plain => some ({ tagger with inString := true, current := {} }, [byte], after)
  else if tagger.inString then some (tagger.stringByte byte, [byte], after)
  else if !isAsciiWhitespace byte then some ({ tagger.nest byte with last := byte }, [byte], after)
  else some (tagger, [byte], after)

open Tagger List

section Turn

variable {tagger next : Tagger} {byte : UInt8} {after sent rest : List UInt8} {ending : Bool}

theorem Tagger.open_eq_tag {start : List UInt8} (h : tagger.open after ending = .tag start) :
    openPrefix tagger.tag after ending (idPrefixes.map utf8) = .tag start := by
  unfold Tagger.open at h
  dsimp only at h
  split_ifs at h
  exact h

theorem Tagger.open_append (h : tagger.open after false ≠ .wait) (more : List UInt8) :
    tagger.open (after ++ more) ending = tagger.open after false := by
  unfold Tagger.open at h ⊢
  dsimp only at h ⊢
  split_ifs at h ⊢
  · exact openPrefix_append h more
  · rfl

/-- What a turn can do: send a byte as it is, or an opening quote and a prefix with the tag. -/
inductive Turns (tagger : Tagger) (ending : Bool) (byte : UInt8) (after : List UInt8) :
    List UInt8 → List UInt8 → Prop
  | byte : Turns tagger ending byte after [byte] after
  | tag {start rest : List UInt8} (hquote : byte = quote) (hafter : after = start ++ rest)
    (hopen : openPrefix tagger.tag after ending (idPrefixes.map utf8) = .tag start) :
    Turns tagger ending byte after (byte :: (start ++ tagger.tag)) rest

theorem Tagger.turn_cases (h : tagger.turn ending byte after = some (next, sent, rest)) :
    next.tag = tagger.tag ∧ next.held = tagger.held ∧ Turns tagger ending byte after sent rest := by
  unfold turn at h
  split_ifs at h with hqt hst hsp
  · rw [Bool.and_eq_true, decide_eq_true_eq] at hqt
    split at h
    · cases h
    · rename_i start hopen
      obtain ⟨rest', rfl⟩ := (openPrefix_tag (tagger.open_eq_tag hopen)).2.1
      simp only [drop_left, Option.some.injEq, Prod.mk.injEq] at h
      obtain ⟨rfl, rfl, rfl⟩ := h
      exact ⟨rfl, rfl, .tag hqt.2 rfl (tagger.open_eq_tag hopen)⟩
    · cases h
      exact ⟨rfl, rfl, .byte⟩
  · cases h
    unfold stringByte
    split_ifs <;> exact ⟨rfl, rfl, .byte⟩
  · cases h
    unfold nest
    split_ifs <;> exact ⟨rfl, rfl, .byte⟩
  · cases h
    exact ⟨rfl, rfl, .byte⟩

theorem Tagger.turn_append (h : tagger.turn false byte after = some (next, sent, rest))
    (more : List UInt8) (ending : Bool) :
    tagger.turn ending byte (after ++ more) = some (next, sent, rest ++ more) := by
  unfold turn at h ⊢
  split_ifs at h ⊢ with hqt hsg hsp
  · have hopen : tagger.open after false ≠ .wait := by
      intro hwt
      rw [hwt] at h
      cases h
    rw [tagger.open_append hopen more]
    split at h
    · cases h
    · rename_i start htag
      have hst := (openPrefix_tag (tagger.open_eq_tag htag)).2.1.length_le
      cases h
      rw [drop_append_of_le_length hst]
    · cases h
      rfl
  all_goals
    cases h
    rfl

def Tagger.scanner : Chunks.Scanner Tagger UInt8 UInt8 where
  turn := Tagger.turn
  shorter h := by
    obtain ⟨-, -, hturns⟩ := Tagger.turn_cases h
    cases hturns with
    | byte => exact Nat.le_refl _
    | tag _ hafter _ =>
      rw [hafter, List.length_append]
      exact Nat.le_add_left _ _
  stable := Tagger.turn_append

/-- A scanner that waits holds back less than a prefix with the tag, and the response goes on. -/
theorem Tagger.turn_eq_none (h : tagger.turn ending byte after = none) :
    ending = false ∧ ∃ start ∈ idPrefixes.map utf8,
      (byte :: after).length ≤ (start ++ tagger.tag).length := by
  unfold Tagger.turn Tagger.open at h
  split_ifs at h
  split at h
  · rename_i hopen
    dsimp only at hopen
    split_ifs at hopen
    exact openPrefix_wait hopen
  all_goals cases h

/-- A turn keeps to what may be done to a stream. -/
theorem Turns.tagged {out : List UInt8} (h : Turns tagger ending byte after sent rest)
    (hout : Tagged tagger.tag rest out) : Tagged tagger.tag (byte :: after) (sent ++ out) := by
  cases h with
  | byte => exact Tagged.byte byte hout
  | tag hqt haf hopen =>
    obtain ⟨hst, -, hnot⟩ := openPrefix_tag hopen
    rw [haf, prefix_append_right_inj] at hnot
    rw [hqt, haf]
    simpa using Tagged.id hst hnot hout

end Turn

section Follow

open Chunks

variable {tagger : Tagger} {ending : Bool} {input : List UInt8}

theorem follow_fields :
    (follow scanner ending tagger input).1.tag = tagger.tag ∧
      (follow scanner ending tagger input).1.held = tagger.held := by
  fun_induction follow scanner ending tagger input with
  | case1 => exact ⟨rfl, rfl⟩
  | case2 => exact ⟨rfl, rfl⟩
  | case3 _ _ _ _ _ _ h _ _ ih =>
    obtain ⟨htag, hhl, -⟩ := turn_cases h
    exact ⟨ih.1.trans htag, ih.2.trans hhl⟩

/-- What is held back is empty or waits for the rest of a tagged prefix; at the end it is empty. -/
theorem follow_held (tagger : Tagger) (ending : Bool) (input : List UInt8) :
    (follow scanner ending tagger input).2.2 = [] ∨ ending = false ∧
      ∃ start ∈ idPrefixes.map utf8, (follow scanner ending tagger input).2.2.length ≤
        (start ++ tagger.tag).length := by
  fun_induction follow scanner ending tagger input with
  | case1 => exact .inl rfl
  | case2 _ _ _ h => exact .inr (turn_eq_none h)
  | case3 _ _ _ _ _ _ h _ _ ih =>
    rw [(turn_cases h).1] at ih
    exact ih

/-- An input that leaves nothing held is sent with tags put in. -/
theorem follow_tagged (hhl : (follow scanner ending tagger input).2.2 = []) :
    Tagged tagger.tag input (follow scanner ending tagger input).2.1 := by
  fun_induction follow scanner ending tagger input with
  | case1 => exact Tagged.nil
  | case2 => cases hhl
  | case3 _ _ _ _ _ _ h _ _ ih =>
    obtain ⟨htag, -, htr⟩ := turn_cases h
    exact htr.tagged (htag ▸ ih hhl)

end Follow

/-! ### The loop takes the turns -/

/-- The first part of what is emitted, up to a position before every insert. -/
theorem emitLoop_split (tag input : List UInt8) {start middle stop : Nat} {inserts : List Nat}
    (hstr : start ≤ middle) (hin : ∀ i ∈ inserts, middle ≤ i) (hst : middle ≤ stop) :
    emitLoop tag input start inserts stop
      = (input.drop start).take (middle - start) ++ emitLoop tag input middle inserts stop := by
  have hsp {last : Nat} (hls : middle ≤ last) : (input.drop start).take (last - start)
      = (input.drop start).take (middle - start) ++ (input.drop middle).take (last - middle) := by
    have hsum : last - start = (middle - start) + (last - middle) := by omega
    rw [hsum, take_add, drop_drop]
    congr 3
    omega
  cases inserts with
  | nil => exact hsp hst
  | cons i inserts =>
    rw [emitLoop, emitLoop, hsp (hin i mem_cons_self), append_assoc]

/-- Where the emitted part of a plan ends. -/
def Plan.stop (plan : Plan) (input : List UInt8) : Nat := plan.hold.getD input.length

/-- What a scan from a position adds to a plan: what is sent and what is held back by it. -/
structure Scanned (tag input : List UInt8) (i : Nat) (plan result : Plan) (inserts : List Nat)
    (sent held : List UInt8) : Prop where
  inserts_eq : result.inserts = plan.inserts ++ inserts
  le_insert : ∀ j ∈ inserts, i ≤ j
  le_stop : i ≤ result.stop input
  sent_eq : emitLoop tag input i inserts (result.stop input) = sent
  held_eq : input.drop (result.stop input) = held

section Scan

variable {tag input sent held : List UInt8} {i : Nat} {plan result : Plan} {inserts : List Nat}

theorem Scanned.byte {byte : UInt8} {after : List UInt8} (hdr : input.drop i = byte :: after)
    (h : Scanned tag input (i + 1) plan result inserts sent held) :
    Scanned tag input i plan result inserts ([byte] ++ sent) held where
  inserts_eq := h.inserts_eq
  le_insert := fun j hj => (Nat.le_succ i).trans (h.le_insert j hj)
  le_stop := (Nat.le_succ i).trans h.le_stop
  sent_eq := by
    rw [emitLoop_split tag input (Nat.le_succ i) h.le_insert h.le_stop, h.sent_eq, hdr,
      Nat.succ_sub (Nat.le_refl i), Nat.sub_self]
    rfl
  held_eq := h.held_eq

/-- A scan that passes over an opening quote and a prefix, with the tag put in behind them. -/
theorem Scanned.insert {start rest : List UInt8} (hdr : input.drop i = quote :: (start ++ rest))
    (h : Scanned tag input (i + 1 + start.length)
      { plan with inserts := plan.inserts ++ [i + 1 + start.length] } result inserts sent held) :
    Scanned tag input i plan result ((i + 1 + start.length) :: inserts)
      (quote :: (start ++ tag) ++ sent) held where
  inserts_eq := by
    rw [h.inserts_eq]
    simp
  le_insert := by
    intro j hj
    rcases mem_cons.mp hj with rfl | hj
    · omega
    · have := h.le_insert j hj
      omega
  le_stop := by
    have := h.le_stop
    omega
  sent_eq := by
    have hlen : i + 1 + start.length - i = start.length + 1 := by omega
    rw [emitLoop, h.sent_eq, hdr, hlen, take_succ_cons, take_left]
    simp
  held_eq := h.held_eq

end Scan

/-- **The loop follows the input**, from every position on. -/
theorem scanLoop_follow {input : List UInt8} {ending : Bool} {fuel : Nat} {tagger : Tagger}
    {i : Nat} {plan : Plan} (hi : i ≤ input.length) (hfl : input.length - i < fuel)
    (hhl : plan.hold = none) :
    let followed := Chunks.follow scanner ending tagger (input.drop i)
    (scanLoop input ending fuel tagger i plan).1 = followed.1 ∧
      ∃ inserts, Scanned tagger.tag input i plan (scanLoop input ending fuel tagger i plan).2 inserts
        followed.2.1 followed.2.2 := by
  induction fuel generalizing tagger i plan with
  | zero => omega
  | succ fuel ih =>
    rw [scanLoop]
    cases hdr : input.drop i with
    | nil =>
      have hstp : plan.stop input = input.length := by rw [Plan.stop, hhl, Option.getD_none]
      rw [Chunks.follow]
      refine ⟨rfl, [], (append_nil _).symm, by simp, hstp ▸ hi, ?_, ?_⟩
      · rw [emitLoop, hdr, take_nil]
      · rw [hstp, drop_length]
    | cons byte after =>
      have hlen := congrArg length hdr
      rw [length_drop, length_cons] at hlen
      have hnx : input.drop (i + 1) = after := by
        rw [← drop_drop, hdr, drop_succ_cons, drop_zero]
      -- every turn but the one that tags goes one byte on and leaves the plan alone
      have hby (next : Tagger) (htag : next.tag = tagger.tag)
          (htr : tagger.turn ending byte after = some (next, [byte], after)) :
          (scanLoop input ending fuel next (i + 1) plan).1 =
              (Chunks.follow scanner ending tagger (byte :: after)).1 ∧
            ∃ inserts, Scanned tagger.tag input i plan
              (scanLoop input ending fuel next (i + 1) plan).2 inserts
              (Chunks.follow scanner ending tagger (byte :: after)).2.1
              (Chunks.follow scanner ending tagger (byte :: after)).2.2 := by
        obtain ⟨hst, inserts, hsc⟩ :=
          @ih next (i + 1) plan (by omega) (by omega) hhl
        rw [hnx] at hst hsc
        rw [(Chunks.follow_of_some htr : Chunks.follow scanner _ _ _ = _)]
        exact ⟨hst, inserts, (htag ▸ hsc).byte hdr⟩
      dsimp only
      split_ifs with hqt hsg hsp
      · obtain ⟨-, rfl⟩ : _ ∧ byte = quote := by simpa using hqt
        split
        · rename_i hopen
          have htr : tagger.turn ending quote after = none := by
            rw [turn, if_pos hqt, hopen]
          rw [(Chunks.follow_of_none htr : Chunks.follow scanner _ _ _ = _)]
          exact ⟨rfl, [], (append_nil _).symm, by simp, le_rfl, by
            rw [emitLoop, Plan.stop, Option.getD_some, Nat.sub_self, take_zero], hdr⟩
        · rename_i start hopen
          obtain ⟨rest, rfl⟩ := (openPrefix_tag (tagger.open_eq_tag hopen)).2.1
          rw [length_append] at hlen
          obtain ⟨hst, inserts, hsc⟩ :=
            @ih { tagger with inString := true, current := {} } (i + 1 + start.length)
              { plan with inserts := plan.inserts ++ [i + 1 + start.length] } (by omega) (by omega)
              hhl
          rw [← drop_drop, hnx, drop_left] at hst hsc
          have htr : tagger.turn ending quote (start ++ rest) = some
              ({ tagger with inString := true, current := {} },
                quote :: (start ++ tagger.tag), rest) := by
            rw [turn, if_pos hqt, hopen]
            dsimp only
            rw [drop_left]
          rw [(Chunks.follow_of_some htr : Chunks.follow scanner _ _ _ = _)]
          exact ⟨hst, _, hsc.insert hdr⟩
        · rename_i hopen
          exact hby _ rfl (by rw [turn, if_pos hqt, hopen])
      · have htr : tagger.turn ending byte after = some (tagger.stringByte byte, [byte], after) := by
          rw [turn, if_neg hqt, if_pos hsg]
        exact hby _ (turn_cases htr).1 htr
      · have htr : tagger.turn ending byte after
            = some ({ tagger.nest byte with last := byte }, [byte], after) := by
          rw [turn, if_neg hqt, if_neg hsg, if_pos hsp]
        exact hby _ (turn_cases htr).1 htr
      · exact hby _ rfl (by rw [turn, if_neg hqt, if_neg hsg, if_neg hsp])

/-- The tagger with these bytes held back. -/
def Tagger.holding (tagger : Tagger) (held : List UInt8) : Tagger := { tagger with held := held }

theorem Tagger.holding_held {tagger : Tagger} {held : List UInt8} (h : tagger.held = held) :
    tagger.holding held = tagger := by
  rw [← h]
  rfl

theorem Tagger.scan_emit {tagger : Tagger} (input : List UInt8) (ending : Bool)
    (hhl : tagger.held = []) :
    let followed := Chunks.follow scanner ending tagger input
    (tagger.scan input ending).1.emit input (tagger.scan input ending).2 =
      (followed.1.holding followed.2.2, followed.2.1) := by
  obtain ⟨hst, inserts, hsc⟩ := @scanLoop_follow input ending (input.length + 1) tagger 0 {}
    (Nat.zero_le input.length) (Nat.lt_succ_self _) rfl
  obtain ⟨htag, hhl'⟩ := follow_fields
  rw [drop_zero] at hst hsc
  change (tagger.scan input ending).1 = _ at hst
  change Scanned _ _ _ _ (tagger.scan input ending).2 _ _ _ at hsc
  have hin : (tagger.scan input ending).2.inserts = inserts := hsc.inserts_eq
  dsimp only
  rw [← hsc.held_eq, ← hsc.sent_eq, ← hin, ← htag, ← hst]
  rw [← hst, hhl] at hhl'
  generalize tagger.scan input ending = result at hhl' ⊢
  unfold emit Plan.stop
  cases result.2.hold with
  | none =>
    rw [Option.getD_none, drop_length, holding_held hhl']
  | some hold => rfl

/-- **A push takes the turns of the scanner** from what was held back. -/
theorem Tagger.push_eq (tagger : Tagger) (chunk : List UInt8) (ending : Bool) :
    let pushed := Chunks.push scanner ending (tagger.holding [], tagger.held) chunk
    tagger.push chunk ending = (pushed.1.1.holding pushed.1.2, pushed.2) := by
  unfold push
  split_ifs with hhl
  · rw [List.isEmpty_iff] at hhl
    have hem := tagger.scan_emit chunk ending hhl
    rw [holding_held hhl, hhl, Chunks.push, List.nil_append]
    dsimp only at hem ⊢
    split_ifs with hun
    · -- nothing to tag and nothing to hold: the chunk goes as it is
      rw [Bool.and_eq_true, List.isEmpty_iff, Option.isNone_iff_eq_none] at hun
      rw [← hem, emit, hun.1, hun.2]
      simp [emitLoop]
    · exact hem
  · exact scan_emit (tagger.held ++ chunk) ending rfl

/-- The last push holds nothing back, the others less than a tagged prefix. -/
theorem Tagger.push_held (tagger : Tagger) (chunk : List UInt8) (ending : Bool) :
    (tagger.push chunk ending).1.held = [] ∨ ending = false ∧ ∃ start ∈ idPrefixes.map utf8,
      (tagger.push chunk ending).1.held.length ≤ (start ++ tagger.tag).length := by
  rw [push_eq]
  exact follow_held (tagger.holding []) ending (tagger.held ++ chunk)

theorem Tagger.push_tag (tagger : Tagger) (chunk : List UInt8) (ending : Bool) :
    (tagger.push chunk ending).1.tag = tagger.tag := by
  rw [push_eq]
  exact (follow_fields).1

/-- **Two pushes are one push of both chunks.** -/
theorem Tagger.push_append (tagger : Tagger) (chunk next : List UInt8) (ending : Bool) :
    tagger.push (chunk ++ next) ending =
      let first := tagger.push chunk false
      let second := first.1.push next ending
      (second.1, first.2 ++ second.2) := by
  have hhl : (Chunks.push scanner false (tagger.holding [], tagger.held) chunk).1.1.held = [] :=
    (follow_fields).2
  simp only [push_eq, Chunks.push_push]
  generalize Chunks.push scanner false (tagger.holding [], tagger.held) chunk = first at hhl ⊢
  have hid : (first.1.1.holding first.1.2).holding [] = first.1.1 := holding_held hhl
  rw [hid]
  rfl

/-- **A whole response is one push of its body.** -/
theorem Tagger.run_eq_push (tagger : Tagger) (chunks : List (List UInt8)) (hch : chunks ≠ []) :
    tagger.run chunks = (tagger.push chunks.flatten true).2 := by
  induction chunks generalizing tagger with
  | nil => exact absurd rfl hch
  | cons chunk chunks ih =>
    cases chunks with
    | nil => rw [run, flatten_cons, flatten_nil, append_nil]
    | cons next chunks =>
      rw [flatten_cons, push_append]
      exact congrArg _ (ih _ (cons_ne_nil _ _))

/-- **A whole response keeps to what may be done to it.** -/
theorem Tagger.run_tagged (tagger : Tagger) (chunks : List (List UInt8)) (hch : chunks ≠ []) :
    Tagged tagger.tag (tagger.held ++ chunks.flatten) (tagger.run chunks) := by
  rw [tagger.run_eq_push chunks hch, push_eq]
  have hhl := (follow_held (tagger.holding []) true (tagger.held ++ chunks.flatten)).resolve_right
    fun h => by cases h.1
  exact follow_tagged hhl

/-- **The cuts between the chunks leave no trace.**  However a response is cut, what is sent is what
one push of its body sends, and is the body with the tag put in; and between the pushes no more is
held back than the longest prefix with the tag. -/
theorem tagging_ignores_chunks (tag : List Char) (chunks : List (List UInt8)) (last : List UInt8) :
    let tagger := Tagger.new tag
    let body := (chunks ++ [last]).flatten
    tagger.run (chunks ++ [last]) = (tagger.push body true).2 ∧
      Tagged (utf8 tag) body (tagger.run (chunks ++ [last])) ∧
      ∃ start ∈ idPrefixes.map utf8,
        (Run.run (fun tagger chunk => (tagger.push chunk false).1) tagger chunks).held.length ≤
          (start ++ utf8 tag).length := by
  intro tagger body
  have hch : chunks ++ [last] ≠ [] := List.append_ne_nil_of_right_ne_nil _ (List.cons_ne_nil _ _)
  refine ⟨tagger.run_eq_push _ hch, tagger.run_tagged _ hch, ?_⟩
  have hrun := @Run.run_invariant _ _ (fun tagger chunk => (tagger.push chunk false).1) tagger chunks
    (fun t => t.tag = utf8 tag ∧
      ∃ start ∈ idPrefixes.map utf8, t.held.length ≤ (start ++ utf8 tag).length) ?_ ?_
  · exact hrun.2
  · rintro t chunk ⟨htag, start, hst, -⟩
    refine ⟨(t.push_tag chunk false).trans htag, ?_⟩
    rcases t.push_held chunk false with hnil | ⟨-, hhl⟩
    · exact ⟨start, hst, by rw [hnil]; exact Nat.zero_le _⟩
    · exact htag ▸ hhl
  · exact ⟨rfl, utf8 "resp_".toList, List.mem_map_of_mem List.mem_cons_self, Nat.zero_le _⟩

end PraxisGrid.Gateway
