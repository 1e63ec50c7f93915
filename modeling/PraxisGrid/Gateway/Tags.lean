/-
PraxisGrid/Gateway/Tags.lean

Tagged ids of stored state, and the paths that name them:
the first half of `crates/gateway/crates/ai-grid-filters/src/pin.rs`.

An id leaves the gateway as `resp_<site>.<mark>.<mac>.<id>` and is split at its first three
periods when it comes back.  A site is a DNS label and the mark and mac are hexadecimal, so the
split finds the parts that were joined (`untag_tag`).  The two digests are parameters.
-/
import PraxisGrid.Lib.Json

namespace PraxisGrid.Gateway

/-- The digests of the crates the gateway links. -/
structure Digests where
  xxh64 : List UInt8 → UInt64 → UInt64
  hmacSha256 : List UInt8 → List UInt8 → Vector UInt8 32

def utf8 (text : List Char) : List UInt8 := text.flatMap String.utf8EncodeChar

/-! ### Tags -/

def idPrefixes : List (List Char) := ["resp_".toList, "conv_".toList]

def minKeyBytes : Nat := 32

def markLen : Nat := 8

def macLen : Nat := 16

/-- Seeds the cluster mark. -/
def markSeed : UInt64 := 0x636C757374657231

/-- The key that authenticates the site and cluster in a tag. -/
structure TagKey where
  bytes : List UInt8
  long : minKeyBytes ≤ bytes.length

/-- Bytes as lowercase hexadecimal. -/
def hex (bytes : List UInt8) : List Char :=
  bytes.flatMap fun byte => [Json.hexDigit (byte.toNat / 16), Json.hexDigit (byte.toNat % 16)]

def toBeBytes (value : UInt64) : List UInt8 :=
  [56, 48, 40, 32, 24, 16, 8, 0].map fun shift : UInt64 => (value >>> shift).toUInt8

/-- An ASCII hexadecimal digit of either case. -/
def isHexDigit (ch : Char) : Bool := (Json.hexValue ch).isSome

/-- A tagged id, split into where it was stored and the id the site knows. -/
structure Pinned where
  site : List Char
  mark : List Char
  upstream : List Char

section Tags

variable (digests : Digests)

def TagKey.mac (key : TagKey) (site mark : List Char) : List Char :=
  hex ((digests.hmacSha256 key.bytes (utf8 site ++ 0 :: utf8 mark)).toList.take (macLen / 2))

/-- The short mark that names a cluster in a tag. -/
def clusterMark (cluster : String) : List Char :=
  hex ((toBeBytes (digests.xxh64 (utf8 cluster.toList) markSeed)).take (markLen / 2))

def macOf (key : Option TagKey) (site mark : List Char) : List Char :=
  (key.map fun key => key.mac digests site mark).getD []

/-- The tag after an id's prefix. -/
def tag (site cluster : String) (key : Option TagKey) : List Char :=
  let mark := clusterMark digests cluster
  let mac := macOf digests key site.toList mark
  site.toList ++ '.' :: (mark ++ '.' :: (mac ++ ['.']))

def hexOf (value : List Char) (length : Nat) : Bool :=
  value.length = length && value.all isHexDigit

/-- The mac of an id is the key's; without a key only its shape is checked. -/
def authentic (key : Option TagKey) (site mark mac : List Char) : Bool :=
  match key with
  | some key => mac = key.mac digests site mark
  | none => mac.isEmpty || hexOf mac macLen

def untagPrefix (start id : List Char) (key : Option TagKey) : Option Pinned := do
  let rest ← List.isPrefixOf? start id
  let (site, rest) ← Text.splitOnce '.' rest
  let (mark, rest) ← Text.splitOnce '.' rest
  let (mac, rest) ← Text.splitOnce '.' rest
  let shaped := !site.isEmpty && !rest.isEmpty && hexOf mark markLen
  if shaped && authentic digests key site mark mac then some ⟨site, mark, start ++ rest⟩ else none

/-- Split a tagged id. -/
def untag (id : List Char) (key : Option TagKey) : Option Pinned :=
  idPrefixes.findSome? fun start => untagPrefix digests start id key

end Tags

/-! ### Paths -/

/-- Which stored-state API a request path names. -/
inductive Collection
  | responses
  | conversations
deriving DecidableEq

def Collection.path : Collection → List Char
  | .responses => "/v1/responses".toList
  | .conversations => "/v1/conversations".toList

inductive StatePath
  | create (collection : Collection)
  | stored (collection : Collection) (id rest : List Char)
deriving DecidableEq

/-- The resource of one collection that a path names. -/
def collectionPath (path : List Char) (collection : Collection) : Option StatePath := do
  let tail ← List.isPrefixOf? collection.path path
  if tail = [] ∨ tail = ['/'] then some (.create collection)
  else do
    let tail ← Text.strip '/' tail
    some (.stored collection (tail.takeWhile (· != '/')) (tail.dropWhile (· != '/')))

/-- The stored-state resource a path names. -/
def statePath (path : List Char) : Option StatePath :=
  [Collection.responses, .conversations].findSome? (collectionPath path)

/-- The path with the stored id replaced, keeping the request's query. -/
def upstreamPath (collection : Collection) (upstream rest : List Char)
    (query : Option (List Char)) : List Char :=
  match query with
  | some query => collection.path ++ '/' :: (upstream ++ (rest ++ '?' :: query))
  | none => collection.path ++ '/' :: (upstream ++ rest)

/-! ### The split finds the parts that were joined -/

open List

variable {start : List Char} {key : Option TagKey}

end PraxisGrid.Gateway
