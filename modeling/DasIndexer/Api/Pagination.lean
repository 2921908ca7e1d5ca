import DasIndexer.Base58
import DasIndexer.Dao
import DasIndexer.Lib.Select
import Mathlib.Data.List.Lex

namespace DasIndexer
open Sql

inductive Order where
  | asc
  | desc
  deriving DecidableEq, Repr

inductive AssetSortBy where
  | id
  | created
  | updated
  | recentAction
  | none
  deriving DecidableEq, Repr

inductive AssetSortDirection where
  | asc
  | desc
  deriving DecidableEq, Repr

structure AssetSorting where
  sortBy : AssetSortBy := .id
  sortDirection : Option AssetSortDirection := some .desc
  deriving DecidableEq

/-- The columns of `asset` by which a listing is sorted. -/
inductive AssetColumn where
  | id
  | createdAt
  | slotUpdated
  deriving DecidableEq, Repr

structure Cursor where
  id : Option Bytes := none
  deriving DecidableEq

inductive Pagination where
  | keyset (before after : Option Bytes)
  | page (page : Nat)
  | cursor (cursor : Cursor)

structure PageOptions where
  limit : Nat
  page : Option Nat := none
  before : Option Bytes := none
  after : Option Bytes := none
  cursor : Option Cursor := none

inductive DasApiError where
  | pubkeyValidationError (key : String)
  | validationError (message : String)
  | databaseError (problem : DbErr)
  | paginationError
  | paginationEmptyError
  | batchSizeExceededError
  | paginationExceededError
  | cursorValidationError (cursor : String)
  | paginationSortingValidationError
  deriving DecidableEq, Repr

section Validation

def validatePubkey (key : String) : Except DasApiError Pubkey :=
  match Bytes32.ofBase58? key with
  | some pubkey => .ok pubkey
  | none => .error (.pubkeyValidationError key)

def validateOptPubkey : Option String → Except DasApiError (Option Pubkey)
  | some key => match Bytes32.ofBase58? key with
    | some pubkey => .ok (some pubkey)
    | none => .error (.validationError ("Invalid pubkey " ++ key))
  | none => .ok none

/-- An address as a request spells it. -/
structure Address where
  text : String
  key : Pubkey
  reads : Bytes32.ofBase58? text = some key

def Address.ofKey (key : Pubkey) : Address := ⟨key.toBase58, key, Bytes32.ofBase58?_toBase58 key⟩

theorem validatePubkey_address (address : Address) : validatePubkey address.text = .ok address.key := by
  rw [validatePubkey, address.reads]

theorem validateOptPubkey_address (address : Option Address) :
    validateOptPubkey (address.map Address.text) = .ok (address.map Address.key) := by
  cases address with
  | none => rfl
  | some address => rw [Option.map_some, validateOptPubkey, address.reads, Option.map_some]

def getCursor : Option String → Except DasApiError Cursor
  | some cursor => match bs58Decode cursor with
    | some bytes => .ok ⟨some bytes⟩
    | none => .error (.cursorValidationError cursor)
  | none => .ok {}

/-- The checks of `before`, and again of `after`. -/
def validateKeyset (key cursor : Option String) (sorting : Option AssetSorting) : Except DasApiError Unit :=
  match key with
  | none => .ok ()
  | some key =>
    if cursor.isSome then .error .paginationError
    else if sorting.any (fun sort => sort.sortBy ≠ .id) then .error .paginationSortingValidationError
    else (validatePubkey key).map (fun _ => ())

/-- A cursor is read only when the request is sorted. -/
def validatePagination (limit page : Option Nat) (before after cursor : Option String)
    (sorting : Option AssetSorting) : Except DasApiError PageOptions := do
  if limit.any (fun limit => 1000 < limit) then throw .paginationExceededError
  if page = some 0 then throw .paginationEmptyError
  if page.isSome && (before.isSome || after.isSome || cursor.isSome) then throw .paginationError
  validateKeyset before cursor sorting
  validateKeyset after cursor sorting
  if page.isNone && before.isNone && after.isNone then
    match sorting with
    | none => return { limit := limit.getD 1000 }
    | some sort =>
      if sort.sortBy ≠ .id then throw .paginationSortingValidationError
      let cursor ← getCursor cursor
      return { limit := limit.getD 1000, cursor := some cursor }
  else
    return {
      limit := limit.getD 1000
      page
      before := before.map (fun key => (bs58Decode key).getD [])
      after := after.map (fun key => (bs58Decode key).getD []) }

end Validation

def createSorting (sorting : AssetSorting) : Order × Option AssetColumn :=
  let column := match sorting.sortBy with
    | .id => some .id
    | .created => some .createdAt
    | .updated => some .slotUpdated
    | .recentAction => some .slotUpdated
    | .none => none
  let direction := match sorting.sortDirection.getD .desc with
    | .desc => .desc
    | .asc => .asc
  (direction, column)

def createPagination (options : PageOptions) : Except DbErr Pagination :=
  match options.cursor with
  | some cursor => .ok (.cursor cursor)
  | none => match options.before, options.after, options.page with
    | _, _, none => .ok (.keyset options.before options.after)
    | none, none, some page => .ok (.page page)
    | _, _, _ => .error (.custom "Invalid Pagination")

/-- The order in which Postgres compares values of type `bytea`. -/
def byteaKey (bytes : Bytes) : List Nat := bytes.map UInt8.toNat

theorem byteaKey_injective : Function.Injective byteaKey :=
  List.map_injective_iff.mpr (fun _ _ => UInt8.toNat_inj.mp)

/-- A column by which a listing is paginated. -/
inductive Column (R : Type) where
  | bytea (read : R → Bytes)
  | bigint (read : R → Int)

section Paginate
variable {R : Type}

/-- `column < bound`. The bounds of a request are bytes, and Postgres refuses to
compare them with a number. -/
def Column.lt (column : Column R) (bound : Bytes) : Except DbErr (R → Truth) :=
  match column with
  | .bytea read => .ok (fun row => Sql.lt (some (byteaKey (read row))) (some (byteaKey bound)))
  | .bigint _ => .error (.query "operator does not exist: bigint < bytea")

/-- `column > bound`. -/
def Column.gt (column : Column R) (bound : Bytes) : Except DbErr (R → Truth) :=
  match column with
  | .bytea read => .ok (fun row => Sql.gt (some (byteaKey (read row))) (some (byteaKey bound)))
  | .bigint _ => .error (.query "operator does not exist: bigint > bytea")

def filterBelow (stmt : Select R) (column : Column R) : Option Bytes → Except DbErr (Select R)
  | some bound => (column.lt bound).map stmt.filter
  | none => .ok stmt

def filterAbove (stmt : Select R) (column : Column R) : Option Bytes → Except DbErr (Select R)
  | some bound => (column.gt bound).map stmt.filter
  | none => .ok stmt

def paginate (pagination : Pagination) (limit : Nat) (stmt : Select R) (sortDirection : Order)
    (column : Column R) : Except DbErr (Select R) := do
  let stmt ← match pagination with
    | .keyset before after => do
      let stmt ← filterBelow stmt column before
      filterAbove stmt column after
    | .page page => pure (if 0 < page then { stmt with offset := (page - 1) * limit } else stmt)
    | .cursor cursor => match sortDirection with
      | .asc => filterAbove stmt column cursor.id
      | .desc => filterBelow stmt column cursor.id
  return { stmt with limit := some limit }

end Paginate

end DasIndexer
