/-
# What a rebuild reads

A rebuild reads a store once, page by page, in the order of the primary keys. A page may fail to
come.

Key definitions: `pagesOf`, `Source`, `Source.ofList`, `Source.failing`.
-/
import Codebook.Store.Error

namespace Codebook

/-- Cuts items into pages behind a page that is not full yet. All pages are full but the last. -/
def cutBehind {α : Type} (size : Nat) (page : List α) : List α → List (List α)
  | [] => if page.isEmpty then [] else [page]
  | a :: as =>
    if page.length < size then cutBehind size (page ++ [a]) as
    else page :: cutBehind size [a] as

/-- Cuts items into pages, all full but the last. -/
def cut {α : Type} (size : Nat) (items : List α) : List (List α) :=
  cutBehind size [] items

/-- The pages of items. A page has room for at least one. -/
def pagesOf {α : Type} (size : Nat) (items : List α) : Except StoreError (List (List α)) :=
  if size = 0 then .error (.invalidArgument "page size must be positive") else .ok (cut size items)

/-- A store, as far as a rebuild is concerned. -/
structure Source (α : Type) where
  /-- The number of entities. -/
  count : Except StoreError Nat
  /-- The entities in pages of a size. -/
  pages : Nat → Except StoreError (List (Except StoreError (List α)))

namespace Source

/-- A store that holds these entities. -/
def ofList {α : Type} (items : List α) : Source α where
  count := .ok items.length
  pages size := (pagesOf size items).map fun pages => pages.map .ok

/-- A store that cannot be reached any more after some pages. -/
def failing {α : Type} (after : Nat) (items : List α) : Source α where
  count := .ok items.length
  pages size := (pagesOf size items).map fun pages =>
    (pages.take after).map .ok ++ [.error (.unavailable "connection lost while paging")]

end Source

end Codebook
