import TunnelMesh.Paging
import TunnelMesh.Storage.Timestamp
import Mathlib.Data.Prod.Lex

namespace TunnelMesh.Storage

open Paging

inductive Column where
  | id
  | createdAt
  | updatedAt
  | lastSeenAt
  | expiresAt
  | domain
  | name
  deriving DecidableEq

structure SortSpec where
  column : Column
  descending : Bool
  composite : Bool

def listSort (column : Column) (descending : Bool) : SortSpec := ⟨column, descending, column ≠ .id⟩

-- `base64.RawURLEncoding`.
structure Base64 where
  encode : String → String
  decode : String → Option String
  encode_empty : encode "" = ""
  decode_encode : ∀ s, decode (encode s) = some s

namespace Base64

variable (b : Base64)

def encodeCursor (value : String) : String := if value = "" then "" else b.encode value

def decodeCursor (cursor : String) : String := if cursor = "" then "" else (b.decode cursor).getD cursor

def nextCursor (spec : SortSpec) (sortValue id : String) : String :=
  if spec.column = .id ∨ spec.composite = false then b.encodeCursor id
  else if id = "" then ""
  else b.encodeCursor (sortValue ++ "\x00" ++ id)

def cut (s : String) : Option (String × String) :=
  match s.toList.dropWhile (· ≠ '\x00') with
  | [] => none
  | _ :: second => some (String.ofList (s.toList.takeWhile (· ≠ '\x00')), String.ofList second)

def decodeCompositeCursor (cursor : String) : Option (String × String) :=
  if b.decodeCursor cursor = "" then none else cut (b.decodeCursor cursor)

end Base64

-- The columns by which a table is listed. No repository stores an empty id.
structure Row where
  id : String
  name : String
  domain : Option String
  createdAt : ℕ
  updatedAt : ℕ
  expiresAt : Option ℕ
  lastSeenAt : Option ℕ
  named : id ≠ ""
  deriving DecidableEq

-- One repository's list: how the table's timestamps are written, the order when
-- none is asked for, and what the cursor of a row carries besides its id.
structure Listing where
  text : ℕ → String
  initial : SortSpec
  cursorValue : Column → Row → String

def agents : Listing where
  text := tm
  initial := ⟨.createdAt, true, true⟩
  cursorValue
    | .id, _ => ""
    | .updatedAt, row => tm row.updatedAt
    | _, row => tm row.createdAt

def remoteServers : Listing where
  text := tm
  initial := ⟨.updatedAt, true, true⟩
  cursorValue
    | .id, _ => ""
    | _, row => tm row.updatedAt

def credentials : Listing := remoteServers

def serverNodes : Listing where
  text := tm
  initial := ⟨.createdAt, true, true⟩
  cursorValue
    | .id, _ => ""
    | .updatedAt, row => tm row.updatedAt
    | .lastSeenAt, row => (row.lastSeenAt.map tm).getD ""
    | _, row => tm row.createdAt

def pageArgs (limit : ℤ) : ℕ := if limit ≤ 0 ∨ 500 < limit then 50 else limit.toNat

namespace Listing

variable (l : Listing) {κ : Type} [LinearOrder κ] (collate : String → κ) (b : Base64)

-- What the database holds in a column; `none` is NULL.
def stored (row : Row) : Column → Option String
  | .id => row.id
  | .createdAt => l.text row.createdAt
  | .updatedAt => l.text row.updatedAt
  | .lastSeenAt => row.lastSeenAt.map l.text
  | .expiresAt => row.expiresAt.map l.text
  | .domain => row.domain
  | .name => row.name

def sortKey (column : Column) (row : Row) : WithBot κ ×ₗ κ :=
  toLex (if column = .id then ⊥ else (l.stored row column).elim ⊥ (collate ·), collate row.id)

variable (spec : SortSpec)

def orderBy (rows : List Row) : List Row :=
  if spec.descending then ordered (OrderDual.toDual ∘ l.sortKey collate spec.column) rows
  else ordered (l.sortKey collate spec.column) rows

-- No comparison with NULL is true.
def cursorCondition (sortValue id : String) (row : Row) : Bool :=
  let passes (text value : String) : Bool :=
    if spec.descending then collate text < collate value else collate value < collate text
  if spec.column = .id ∨ spec.composite = false then passes row.id id
  else (l.stored row spec.column).any fun text =>
    passes text sortValue || (collate text = collate sortValue && passes row.id id)

def seek (cursor : String) : Row → Bool :=
  if spec.column = .id then
    if b.decodeCursor cursor = "" then fun _ => true
    else l.cursorCondition collate spec "" (b.decodeCursor cursor)
  else (b.decodeCompositeCursor cursor).elim (fun _ => true) fun last =>
    l.cursorCondition collate spec last.1 last.2

def cursor (last : Row) : String := b.nextCursor spec (l.cursorValue spec.column last) last.id

-- The filter is what the query asks of a row besides the cursor.
def list (rows : List Row) (filter : Row → Bool) (sort : Option SortSpec) (limit : ℤ) (cursor : String) :
    Page Row String :=
  let spec := sort.getD l.initial
  let limit := pageArgs limit
  let out := (l.orderBy collate spec (rows.filter fun row => filter row && l.seek collate b spec cursor row)).take
    (limit + 1)
  if limit < out.length then
    let items := out.take limit
    ⟨items, items.getLast?.elim "" (l.cursor b spec), true⟩
  else ⟨out, "", false⟩

end Listing

end TunnelMesh.Storage
