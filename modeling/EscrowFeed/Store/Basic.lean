/-
What a store is: something that upserts are saved to.

Both operations say whether they succeeded and always return the store, since a
store that has failed may still have taken part of what it was given. Nothing
else is assumed of a store here, so what the feed guarantees about the order of
its saves holds for stores that fail in any way they like.
-/
import EscrowFeed.Upsert

set_option autoImplicit false

namespace EscrowFeed

/-- Why a store refused. -/
inductive StoreError where
  /-- The medium failed outside a row's text. -/
  | medium (reason : String)
  /-- The medium failed inside a row's text. -/
  | rowText (reason : String)
  /-- None of the upsert's key columns has a value. -/
  | missingKey (table : String)
deriving DecidableEq

/-- The text of the error. -/
def StoreError.message : StoreError → String
  | .medium reason => "IO error: " ++ reason
  | .rowText reason => "Serialization error: " ++ reason
  | .missingKey table => "Operation on table '" ++ table ++ "' has no conflict key"

/-- Stores that take upserts. Of the upserts of one key the last one counts. -/
class RowStore (σ : Type) where
  save : Upsert → σ → Except StoreError Unit × σ
  /-- Passes on what the store may still hold back. -/
  flush : σ → Except StoreError Unit × σ

namespace RowStore

variable {σ : Type} [RowStore σ]

/-- Saves in order up to the first failure. -/
def saveAll : List Upsert → σ → Except StoreError Unit × σ
  | [], store => (.ok (), store)
  | op :: rest, store =>
    match save op store with
    | (.ok (), store) => saveAll rest store
    | (.error error, store) => (.error error, store)

/-- Saves in order, then flushes if all was saved. -/
def commit (ops : List Upsert) (store : σ) : Except StoreError Unit × σ :=
  match saveAll ops store with
  | (.ok (), store) => flush store
  | (.error error, store) => (.error error, store)

end RowStore

end EscrowFeed
