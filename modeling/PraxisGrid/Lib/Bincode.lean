/-
PraxisGrid/Lib/Bincode.lean

The bincode 2 wire layout in its standard configuration: little-endian, variable-length
integers, sequences and maps prefixed by their length, options by one byte that is 0 or 1,
structures as the concatenation of their fields.

A `Codec` bundles an encoder and a decoder with their law (`decode_encode`): decoding an encoded value
followed by any suffix gives back the value and exactly the suffix.  Codecs are built by combinators
only, so every codec of a development is lawful by construction.

A decoder reads from a `Reader`, the bytes left and the optional byte limit of the configuration.
Each primitive claims its full width before it reads; without a limit a claim never fails.
-/
import PraxisGrid.Lib.OrdMap

namespace Bincode

open Std

/-- A byte string. -/
abbrev Bytes := List UInt8

/-- Why a decoder failed. -/
inductive DecodeError
  | unexpectedEnd
  | limitExceeded
  | invalidIntegerType
  | unexpectedVariant
  | invalidBooleanValue
  | utf8
  | other (message : String)
deriving DecidableEq

/-- Why an encoder failed. -/
inductive EncodeError
  | other (message : String)
deriving DecidableEq

/-- The input of a decoder: the bytes left, and the bytes it may still claim. -/
structure Reader where
  bytes : Bytes
  limit : Option Nat := none

/-- A decoder consumes a prefix of its input. -/
abbrev Decoder (α : Type) := Reader → Except DecodeError (α × Reader)

/-! ### Sequencing of fallible computations -/

section Except

variable {ε α β : Type}

@[simp] theorem ok_bind (a : α) (f : α → Except ε β) : (Except.ok a >>= f) = f a := rfl

@[simp] theorem error_bind (e : ε) (f : α → Except ε β) :
    ((Except.error e : Except ε α) >>= f) = .error e := rfl

theorem bind_eq_ok {x : Except ε α} {f : α → Except ε β} {b : β} :
    (x >>= f) = .ok b ↔ ∃ a, x = .ok a ∧ f a = .ok b := by
  cases x with
  | error e => simp
  | ok a => simp

end Except

/-! ### Primitive reads -/

/-- Claim `n` bytes of the limit. -/
def claim (n : Nat) (r : Reader) : Except DecodeError Reader :=
  match r.limit with
  | none => .ok r
  | some left => if n ≤ left then .ok { r with limit := some (left - n) } else .error .limitExceeded

@[simp] theorem claim_none (n : Nat) (bytes : Bytes) :
    claim n ⟨bytes, none⟩ = .ok ⟨bytes, none⟩ := rfl

/-- Take `n` bytes off the input. -/
def readBytes (n : Nat) : Decoder Bytes := fun r =>
  if n ≤ r.bytes.length then .ok (r.bytes.take n, { r with bytes := r.bytes.drop n })
  else .error .unexpectedEnd

@[simp] theorem readBytes_append (bytes rest : Bytes) (limit : Option Nat) :
    readBytes bytes.length ⟨bytes ++ rest, limit⟩ = .ok (bytes, ⟨rest, limit⟩) := by
  simp [readBytes]

/-- Take one byte off the input. -/
def readByte : Decoder UInt8 := fun r =>
  match r.bytes with
  | [] => .error .unexpectedEnd
  | b :: rest => .ok (b, { r with bytes := rest })

/-! ### Little-endian words -/

/-- The `k` low-order bytes of `n`, least significant first. -/
def leBytes : Nat → Nat → Bytes
  | 0, _ => []
  | k + 1, n => UInt8.ofNat (n % 256) :: leBytes k (n / 256)

/-- The number with the given bytes, least significant first. -/
def ofLe : Bytes → Nat
  | [] => 0
  | b :: bytes => b.toNat + 256 * ofLe bytes

variable {n : Nat}

@[simp] theorem length_leBytes (k n : Nat) : (leBytes k n).length = k := by
  induction k generalizing n with
  | zero => rfl
  | succ k ih => simp [leBytes, ih]

theorem ofLe_leBytes {k : Nat} (h : n < 256 ^ k) : ofLe (leBytes k n) = n := by
  induction k generalizing n with
  | zero =>
    rw [Nat.pow_zero] at h
    simp only [leBytes, ofLe]
    omega
  | succ k ih =>
    have hdiv : n / 256 < 256 ^ k := by
      rw [Nat.div_lt_iff_lt_mul (by decide)]
      rwa [Nat.pow_succ] at h
    have hby : (UInt8.ofNat (n % 256)).toNat = n % 256 :=
      UInt8.toNat_ofNat_of_lt' (Nat.mod_lt _ (by decide))
    simp only [leBytes, ofLe, hby, ih hdiv]
    omega

/-- Read a `k`-byte little-endian word. -/
def readLe (k : Nat) : Decoder Nat := fun r => do
  let (bytes, r) ← readBytes k r
  pure (ofLe bytes, r)

theorem readLe_leBytes {k : Nat} (h : n < 256 ^ k) (rest : Bytes) (limit : Option Nat) :
    readLe k ⟨leBytes k n ++ rest, limit⟩ = .ok (n, ⟨rest, limit⟩) := by
  have hrd := readBytes_append (leBytes k n) rest limit
  rw [length_leBytes] at hrd
  simp only [readLe, hrd, ok_bind, ofLe_leBytes h]
  rfl

/-! ### Variable-length integers -/

/-- Up to 250 in one byte, then a width marker and the little-endian word. -/
def varintBytes (n : Nat) : Bytes :=
  if n < 251 then [UInt8.ofNat n]
  else if n < 2 ^ 16 then 251 :: leBytes 2 n
  else if n < 2 ^ 32 then 252 :: leBytes 4 n
  else 253 :: leBytes 8 n

/-- Read a variable-length integer of at most `width` bytes. -/
def readVarint (width : Nat) : Decoder Nat := fun r => do
  let (b, r) ← readByte r
  if b.toNat < 251 then pure (b.toNat, r)
  else if b = 251 then readLe 2 r
  else if b = 252 ∧ 4 ≤ width then readLe 4 r
  else if b = 253 ∧ 8 ≤ width then readLe 8 r
  else .error .invalidIntegerType

theorem readVarint_varintBytes (width : Nat) (hwd : width = 2 ∨ width = 4 ∨ width = 8)
    (hn : n < 256 ^ width) (rest : Bytes) (limit : Option Nat) :
    readVarint width ⟨varintBytes n ++ rest, limit⟩ = .ok (n, ⟨rest, limit⟩) := by
  unfold varintBytes
  split_ifs with h₁ h₂ h₃
  · have hby : (UInt8.ofNat n).toNat = n :=
      UInt8.toNat_ofNat_of_lt' (Nat.lt_of_lt_of_le h₁ (by decide))
    simp only [readVarint, readByte, List.singleton_append, ok_bind, hby, if_pos h₁]
    rfl
  · exact readLe_leBytes (k := 2) h₂ rest limit
  · have h4 : 4 ≤ width := by
      rcases hwd with rfl | rfl | rfl
      · omega
      · omega
      · omega
    have hrd := readLe_leBytes (k := 4) h₃ rest limit
    simpa [readVarint, readByte, h4] using hrd
  · have h8 : 8 ≤ width := by
      rcases hwd with rfl | rfl | rfl
      · omega
      · omega
      · omega
    have hn8 : n < 256 ^ 8 := by
      rcases hwd with rfl | rfl | rfl
      · omega
      · omega
      · exact hn
    have hrd := readLe_leBytes (k := 8) hn8 rest limit
    simpa [readVarint, readByte, h8] using hrd

/-! ### Codecs -/

/-- An encoder with a decoder that reads its output back, whatever follows it.  `fits` says
that every length in the value fits a 64-bit word, as it does for a value in memory; such a
value is always encoded. -/
structure Codec (α : Type) where
  encode : α → Except EncodeError Bytes
  decode : Decoder α
  fits : α → Bool
  encode_ok : ∀ {a : α}, fits a = true → ∃ bytes, encode a = .ok bytes
  decode_encode : ∀ {a : α} {bytes : Bytes} (rest : Bytes), encode a = .ok bytes →
    decode ⟨bytes ++ rest, none⟩ = .ok (a, ⟨rest, none⟩)

namespace Codec

variable {α β : Type} {a : α} {bytes : Bytes}

theorem decode_encode_nil (c : Codec α) (h : c.encode a = .ok bytes) :
    c.decode ⟨bytes, none⟩ = .ok (a, ⟨[], none⟩) := by
  have := c.decode_encode [] h
  rwa [List.append_nil] at this

/-- One byte, as is. -/
def u8 : Codec UInt8 where
  encode b := .ok [b]
  decode r := do
    let r ← claim 1 r
    readByte r
  fits _ := true
  encode_ok _ := ⟨_, rfl⟩
  decode_encode := by
    intro b bytes rest h
    cases h
    rfl

/-- A 16-bit unsigned integer. -/
def u16 : Codec UInt16 where
  encode n := .ok (varintBytes n.toNat)
  decode r := do
    let r ← claim 2 r
    let (n, r) ← readVarint 2 r
    pure (UInt16.ofNat n, r)
  fits _ := true
  encode_ok _ := ⟨_, rfl⟩
  decode_encode := by
    intro n bytes rest h
    cases h
    have hread := readVarint_varintBytes 2 (.inl rfl) n.toNat_lt rest none
    simp only [claim_none, ok_bind, hread, UInt16.ofNat_toNat]
    rfl

/-- A 32-bit unsigned integer. -/
def u32 : Codec UInt32 where
  encode n := .ok (varintBytes n.toNat)
  decode r := do
    let r ← claim 4 r
    let (n, r) ← readVarint 4 r
    pure (UInt32.ofNat n, r)
  fits _ := true
  encode_ok _ := ⟨_, rfl⟩
  decode_encode := by
    intro n bytes rest h
    cases h
    have hread := readVarint_varintBytes 4 (.inr (.inl rfl)) n.toNat_lt rest none
    simp only [claim_none, ok_bind, hread, UInt32.ofNat_toNat]
    rfl

/-- A 64-bit unsigned integer. -/
def u64 : Codec UInt64 where
  encode n := .ok (varintBytes n.toNat)
  decode r := do
    let r ← claim 8 r
    let (n, r) ← readVarint 8 r
    pure (UInt64.ofNat n, r)
  fits _ := true
  encode_ok _ := ⟨_, rfl⟩
  decode_encode := by
    intro n bytes rest h
    cases h
    have hread := readVarint_varintBytes 8 (.inr (.inr rfl)) n.toNat_lt rest none
    simp only [claim_none, ok_bind, hread, UInt64.ofNat_toNat]
    rfl

/-- A length.  Lengths of values in memory fit a 64-bit word; the error branch only makes
the encoder total. -/
def length : Codec Nat where
  encode n := if n < 2 ^ 64 then u64.encode (UInt64.ofNat n) else .error (.other "length overflow")
  decode r := do
    let (n, r) ← u64.decode r
    pure (n.toNat, r)
  fits n := decide (n < 2 ^ 64)
  encode_ok := by
    intro n hn
    exact ⟨_, if_pos (of_decide_eq_true hn)⟩
  decode_encode := by
    intro n bytes rest h
    split_ifs at h with hn
    rw [u64.decode_encode rest h, ok_bind]
    simp only [UInt64.toNat_ofNat_of_lt' hn]
    rfl

/-- A 64-bit word in fixed width, as floating-point numbers are written. -/
def word64 : Codec UInt64 where
  encode n := .ok (leBytes 8 n.toNat)
  decode r := do
    let r ← claim 8 r
    let (n, r) ← readLe 8 r
    pure (UInt64.ofNat n, r)
  fits _ := true
  encode_ok _ := ⟨_, rfl⟩
  decode_encode := by
    intro n bytes rest h
    cases h
    have hread := readLe_leBytes (k := 8) n.toNat_lt rest none
    simp only [claim_none, ok_bind, hread, UInt64.ofNat_toNat]
    rfl

/-- Two values, one after the other. -/
def pair (c : Codec α) (d : Codec β) : Codec (α × β) where
  encode x := do
    let first ← c.encode x.1
    let second ← d.encode x.2
    pure (first ++ second)
  decode r := do
    let (a, r) ← c.decode r
    let (b, r) ← d.decode r
    pure ((a, b), r)
  fits x := c.fits x.1 && d.fits x.2
  encode_ok := by
    rintro ⟨a, b⟩ h
    rw [Bool.and_eq_true] at h
    obtain ⟨first, hfirst⟩ := c.encode_ok h.1
    obtain ⟨second, hsecond⟩ := d.encode_ok h.2
    simp only [hfirst, hsecond, ok_bind]
    exact ⟨_, rfl⟩
  decode_encode := by
    rintro ⟨a, b⟩ bytes rest h
    obtain ⟨first, hfirst, h⟩ := bind_eq_ok.mp h
    obtain ⟨second, hsecond, h⟩ := bind_eq_ok.mp h
    cases h
    simp only [List.append_assoc, c.decode_encode _ hfirst, ok_bind, d.decode_encode _ hsecond]
    rfl

/-- Decode a representation, then the value it stands for. -/
def refine (c : Codec α) (f : α → Except DecodeError β) (g : β → α)
    (hfg : ∀ b, f (g b) = .ok b) : Codec β where
  encode b := c.encode (g b)
  decode r := do
    let (a, r) ← c.decode r
    let b ← f a
    pure (b, r)
  fits b := c.fits (g b)
  encode_ok h := c.encode_ok h
  decode_encode := by
    intro b bytes rest h
    simp only [c.decode_encode rest h, ok_bind, hfg]
    rfl

/-- A structure, by its tuple of fields. -/
def iso (c : Codec α) (f : α → β) (g : β → α) (hfg : ∀ b, f (g b) = b) : Codec β :=
  c.refine (fun a => .ok (f a)) g fun b => congrArg Except.ok (hfg b)

def bool : Codec Bool :=
  u8.refine
    (fun b => if b = 0 then .ok false else if b = 1 then .ok true else .error .invalidBooleanValue)
    (fun b => if b then 1 else 0)
    (by decide)

/-- An optional value: one byte, 0 or 1, then the value if there is one. -/
def option (c : Codec α) : Codec (Option α) where
  encode
    | none => .ok [0]
    | some a => do
        let bytes ← c.encode a
        pure (1 :: bytes)
  decode r := do
    let (tag, r) ← u8.decode r
    if tag = 0 then pure (none, r)
    else if tag = 1 then
      let (a, r) ← c.decode r
      pure (some a, r)
    else .error .unexpectedVariant
  fits a := a.all c.fits
  encode_ok := by
    rintro (- | a) h
    · exact ⟨_, rfl⟩
    · obtain ⟨bytes, hbytes⟩ := c.encode_ok h
      simp only [hbytes, ok_bind]
      exact ⟨_, rfl⟩
  decode_encode := by
    rintro (- | a) bytes rest h
    · cases h
      rfl
    · obtain ⟨body, hbody, h⟩ := bind_eq_ok.mp h
      cases h
      have htag : u8.decode ⟨1 :: body ++ rest, none⟩ = .ok (1, ⟨body ++ rest, none⟩) := rfl
      simp only [htag, ok_bind, c.decode_encode rest hbody]
      rfl

/-! ### Sequences -/

def encodeAll (c : Codec α) : List α → Except EncodeError Bytes
  | [] => .ok []
  | a :: as => do
      let first ← c.encode a
      let rest ← encodeAll c as
      pure (first ++ rest)

/-- Decode `n` values one after the other. -/
def decodeN (c : Codec α) : Nat → Decoder (List α)
  | 0, r => .ok ([], r)
  | n + 1, r => do
      let (a, r) ← c.decode r
      let (as, r) ← decodeN c n r
      pure (a :: as, r)

theorem encodeAll_ok (c : Codec α) {as : List α} (h : as.all c.fits = true) :
    ∃ bytes, c.encodeAll as = .ok bytes := by
  induction as with
  | nil => exact ⟨_, rfl⟩
  | cons a as ih =>
    rw [List.all_cons, Bool.and_eq_true] at h
    obtain ⟨first, hfr⟩ := c.encode_ok h.1
    obtain ⟨rest, hrs⟩ := ih h.2
    simp only [encodeAll, hfr, hrs, ok_bind]
    exact ⟨_, rfl⟩

theorem decodeN_encodeAll (c : Codec α) {as : List α} (rest : Bytes)
    (h : c.encodeAll as = .ok bytes) :
    c.decodeN as.length ⟨bytes ++ rest, none⟩ = .ok (as, ⟨rest, none⟩) := by
  induction as generalizing bytes with
  | nil =>
    cases h
    rfl
  | cons a as ih =>
    obtain ⟨first, hfr, h⟩ := bind_eq_ok.mp h
    obtain ⟨tail, htl, h⟩ := bind_eq_ok.mp h
    cases h
    simp only [List.length_cons, decodeN, List.append_assoc, c.decode_encode _ hfr, ok_bind,
      ih htl]
    rfl

/-- A sequence, prefixed by its length. -/
def vec (c : Codec α) : Codec (List α) where
  encode as := do
    let n ← length.encode as.length
    let body ← c.encodeAll as
    pure (n ++ body)
  decode r := do
    let (n, r) ← length.decode r
    c.decodeN n r
  fits as := decide (as.length < 2 ^ 64) && as.all c.fits
  encode_ok := by
    intro as h
    rw [Bool.and_eq_true] at h
    obtain ⟨n, hn⟩ := length.encode_ok h.1
    obtain ⟨body, hbody⟩ := c.encodeAll_ok h.2
    simp only [hn, hbody, ok_bind]
    exact ⟨_, rfl⟩
  decode_encode := by
    intro as bytes rest h
    obtain ⟨n, hn, h⟩ := bind_eq_ok.mp h
    obtain ⟨body, hbody, h⟩ := bind_eq_ok.mp h
    cases h
    simp only [List.append_assoc, length.decode_encode _ hn, ok_bind,
      c.decodeN_encodeAll rest hbody]

/-- An array of bytes whose length both sides know. -/
def array (n : Nat) : Codec (Vector UInt8 n) where
  encode v := .ok v.toList
  decode r := do
    let r ← claim n r
    if h : n ≤ r.bytes.length then
      pure (⟨(r.bytes.take n).toArray, by simp [h]⟩, { r with bytes := r.bytes.drop n })
    else .error .unexpectedEnd
  fits _ := true
  encode_ok _ := ⟨_, rfl⟩
  decode_encode := by
    intro v bytes rest h
    cases h
    have hlen : v.toList.length = n := v.length_toList
    have htake : (v.toList ++ rest).take n = v.toList := by
      rw [List.take_append_of_le_length (Nat.le_of_eq hlen.symm), List.take_of_length_le
        (Nat.le_of_eq hlen)]
    have hdrop : (v.toList ++ rest).drop n = rest := by
      rw [List.drop_append_of_le_length (Nat.le_of_eq hlen.symm),
        List.drop_of_length_le (Nat.le_of_eq hlen), List.nil_append]
    have hle : n ≤ (v.toList ++ rest).length := by
      rw [List.length_append, hlen]
      omega
    simp only [claim_none, ok_bind, hle, dif_pos, htake, hdrop]
    rfl

/-- A string: its UTF-8 bytes, prefixed by their number. -/
def string : Codec String where
  encode s := do
    let n ← length.encode s.toUTF8.data.toList.length
    pure (n ++ s.toUTF8.data.toList)
  decode r := do
    let (n, r) ← length.decode r
    let r ← claim n r
    let (bytes, r) ← readBytes n r
    match String.fromUTF8? ⟨bytes.toArray⟩ with
    | some s => pure (s, r)
    | none => .error .utf8
  fits s := decide (s.toUTF8.data.toList.length < 2 ^ 64)
  encode_ok := by
    intro s h
    obtain ⟨n, hn⟩ := length.encode_ok h
    simp only [hn, ok_bind]
    exact ⟨_, rfl⟩
  decode_encode := by
    intro s bytes rest h
    obtain ⟨n, hn, h⟩ := bind_eq_ok.mp h
    cases h
    have hutf8 : String.fromUTF8? ⟨s.toUTF8.data.toList.toArray⟩ = some s := by
      exact dif_pos s.isValidUTF8
    simp only [List.append_assoc, length.decode_encode _ hn, ok_bind, claim_none,
      readBytes_append, hutf8]
    rfl

/-! ### Ordered containers -/

section Containers

variable {κ ν : Type} [Ord κ] [TransOrd κ] [LawfulEqOrd κ]

/-- An ordered map: its entries in key order, prefixed by their number.  A decoder inserts
the entries in the order they come, so a later duplicate wins. -/
def map (k : Codec κ) (v : Codec ν) : Codec (ExtTreeMap κ ν) :=
  (k.pair v).vec.iso (fun entries => ExtTreeMap.ofList entries) (·.toList) OrdMap.ofList_toList

/-- An ordered set: its elements in order, prefixed by their number. -/
def set (c : Codec κ) : Codec (ExtTreeSet κ) :=
  c.vec.iso (fun elements => ExtTreeSet.ofList elements) (·.toList) OrdMap.ofSetList_toList

end Containers

/-! ### Inputs that are too short

A decoder that needs one more value fails where its input ends.  The format does not
describe itself, so this is all that keeps a longer shape from being read out of the bytes
of a shorter one. -/

/-- The codec reads no value from these bytes. -/
def Fails (c : Codec α) (bytes : Bytes) : Prop := ∃ e, c.decode ⟨bytes, none⟩ = .error e

/-- A codec that needs a byte writes one. -/
theorem ne_nil_of_fails {c : Codec α} (hc : c.Fails []) (h : c.encode a = .ok bytes) :
    bytes ≠ [] := by
  rintro rfl
  obtain ⟨e, he⟩ := hc
  cases he.symm.trans (c.decode_encode_nil h)

theorem fails_nil_array (n : Nat) : (array (n + 1)).Fails [] := ⟨.unexpectedEnd, rfl⟩

theorem fails_nil_option (c : Codec α) : c.option.Fails [] := ⟨.unexpectedEnd, rfl⟩

theorem fails_nil_vec (c : Codec α) : c.vec.Fails [] := ⟨.unexpectedEnd, rfl⟩

theorem Fails.refine {c : Codec α} (hc : c.Fails bytes) (f : α → Except DecodeError β) (g : β → α)
    (hfg : ∀ b, f (g b) = .ok b) :
    (c.refine f g hfg).Fails bytes := by
  obtain ⟨e, he⟩ := hc
  exact ⟨e, by simp only [Codec.refine, he, error_bind]⟩

theorem Fails.iso {c : Codec α} (hc : c.Fails bytes) (f : α → β) (g : β → α)
    (hfg : ∀ b, f (g b) = b) : (c.iso f g hfg).Fails bytes :=
  hc.refine _ _ _

theorem Fails.pair {c : Codec α} (hc : c.Fails bytes) (d : Codec β) :
    (c.pair d).Fails bytes := by
  obtain ⟨e, he⟩ := hc
  exact ⟨e, by simp only [Codec.pair, he, error_bind]⟩

theorem Fails.pair_append {c : Codec α} {d : Codec β} {first : Bytes}
    (hfr : c.encode a = .ok first) (hd : d.Fails bytes) : (c.pair d).Fails (first ++ bytes) := by
  obtain ⟨e, he⟩ := hd
  exact ⟨e, by simp only [Codec.pair, c.decode_encode bytes hfr, ok_bind, he, error_bind]⟩

theorem fails_nil_map {κ ν : Type} [Ord κ] [TransOrd κ] [LawfulEqOrd κ] (k : Codec κ)
    (v : Codec ν) : (k.map v).Fails [] :=
  (fails_nil_vec _).iso _ _ _

/-- No value of the second codec is read from the bytes of a value of the first. -/
structure TooShort (c : Codec α) (d : Codec β) : Prop where
  fails : ∀ {a : α} {bytes : Bytes}, c.encode a = .ok bytes → d.Fails bytes

section TooShort

variable {α' β' γ : Type} {c : Codec α} {d : Codec β} {e : Codec γ}

theorem tooShort_pair (hd : d.Fails []) : TooShort c (c.pair d) := by
  constructor
  intro a bytes h
  have hfl := Fails.pair_append h hd
  rwa [List.append_nil] at hfl

/-- Common leading fields are read from both. -/
theorem TooShort.pair (h : TooShort c d) : TooShort (e.pair c) (e.pair d) := by
  constructor
  rintro ⟨x, a⟩ bytes hby
  obtain ⟨first, hfr, hby⟩ := bind_eq_ok.mp hby
  obtain ⟨second, hsec, hby⟩ := bind_eq_ok.mp hby
  cases hby
  exact Fails.pair_append hfr (h.fails hsec)

theorem TooShort.iso_right {f : β → β'} {g : β' → β} {hfg : ∀ b, f (g b) = b}
    (h : TooShort c d) : TooShort c (d.iso f g hfg) :=
  ⟨fun hby => (h.fails hby).iso f g hfg⟩

theorem TooShort.iso {f : α → α'} {g : α' → α} {hfg : ∀ a, f (g a) = a} {f' : β → β'}
    {g' : β' → β} {hfg' : ∀ b, f' (g' b) = b} (h : TooShort c d) :
    TooShort (c.iso f g hfg) (d.iso f' g' hfg') :=
  ⟨fun hby => (h.fails hby).iso f' g' hfg'⟩

end TooShort

/-! ### A string in the place of an option

The first byte of the length of the string is then read as the tag of the option. -/

/-- A length of two or more starts with a byte that is no tag. -/
theorem varintBytes_not_tag (hn : 2 ≤ n) :
    ∃ tag rest, varintBytes n = tag :: rest ∧ tag ≠ 0 ∧ tag ≠ 1 := by
  unfold varintBytes
  split_ifs with h₁ h₂ h₃
  · have hby : (UInt8.ofNat n).toNat = n :=
      UInt8.toNat_ofNat_of_lt' (Nat.lt_of_lt_of_le h₁ (by decide))
    refine ⟨_, _, rfl, ?_, ?_⟩
    · intro h
      have hzr : n = 0 := hby.symm.trans (congrArg UInt8.toNat h)
      omega
    · intro h
      have hone : n = 1 := hby.symm.trans (congrArg UInt8.toNat h)
      omega
  · exact ⟨_, _, rfl, by decide, by decide⟩
  · exact ⟨_, _, rfl, by decide, by decide⟩
  · exact ⟨_, _, rfl, by decide, by decide⟩

theorem fails_option_of_not_tag (c : Codec α) {tag : UInt8} {rest : Bytes} (h₀ : tag ≠ 0)
    (h₁ : tag ≠ 1) : c.option.Fails (tag :: rest) := by
  have htag : u8.decode ⟨tag :: rest, none⟩ = .ok (tag, ⟨rest, none⟩) := rfl
  exact ⟨.unexpectedVariant, by simp only [option, htag, ok_bind, if_neg h₀, if_neg h₁]⟩

theorem readVarint_singleton (width : Nat) (b : UInt8) :
    readVarint width ⟨[b], none⟩ = .ok (b.toNat, ⟨[], none⟩) ∨
      ∃ e, readVarint width ⟨[b], none⟩ = .error e := by
  simp only [readVarint, readByte, ok_bind]
  split_ifs
  · exact .inl rfl
  · exact .inr ⟨.unexpectedEnd, rfl⟩
  · exact .inr ⟨.unexpectedEnd, rfl⟩
  · exact .inr ⟨.unexpectedEnd, rfl⟩
  · exact .inr ⟨_, rfl⟩

theorem fails_string_singleton {b : UInt8} (hb : b ≠ 0) : string.Fails [b] := by
  rcases readVarint_singleton 8 b with hrd | ⟨e, hrd⟩
  · -- the byte is a length, and nothing follows it
    have hlen : length.decode ⟨[b], none⟩ = .ok (b.toNat, ⟨[], none⟩) := by
      simp only [length, u64, claim_none, ok_bind, hrd, pure, Except.pure]
      rw [UInt64.toNat_ofNat_of_lt' (Nat.lt_trans b.toNat_lt (by decide))]
    have hpos : ¬ b.toNat ≤ 0 := by
      intro h
      exact hb (UInt8.toNat_inj.mp (Nat.le_zero.mp h))
    refine ⟨.unexpectedEnd, ?_⟩
    simp only [string, hlen, ok_bind, claim_none, readBytes, List.length_nil, if_neg hpos,
      error_bind]
  · exact ⟨e, by simp only [string, length, u64, claim_none, ok_bind, hrd, error_bind]⟩

/-- An optional string and something more is never read from the bytes of one string. -/
theorem tooShort_string {d : Codec β} (hd : d.Fails []) :
    TooShort string (string.option.pair d) := by
  constructor
  intro s bytes h
  obtain ⟨n, hn, h⟩ := bind_eq_ok.mp h
  cases h
  simp only [length] at hn
  split_ifs at hn with hlt
  cases hn
  rw [UInt64.toNat_ofNat_of_lt' hlt]
  generalize s.toUTF8.data.toList = utf8 at hlt
  match utf8 with
  | [] =>
    -- no string, and then nothing
    exact (tooShort_pair (c := string.option) hd).fails (a := none) rfl
  | [b] =>
    by_cases hb : b = 0
    · -- the empty string, and then nothing
      subst hb
      exact (tooShort_pair (c := string.option) hd).fails (a := some "") rfl
    · -- the tag of a string, and one byte of it
      obtain ⟨e, he⟩ := fails_string_singleton hb
      have htag : u8.decode ⟨[1, b], none⟩ = .ok (1, ⟨[b], none⟩) := rfl
      apply Fails.pair
      refine ⟨e, ?_⟩
      show string.option.decode ⟨[1, b], none⟩ = _
      simp only [option, htag, ok_bind, he, error_bind]
      rfl
  | b₁ :: b₂ :: utf8 =>
    obtain ⟨tag, rest, hby, h₀, h₁⟩ :=
      varintBytes_not_tag (n := (b₁ :: b₂ :: utf8).length) (by simp)
    rw [hby]
    exact (fails_option_of_not_tag string h₀ h₁).pair d

end Codec

end Bincode
