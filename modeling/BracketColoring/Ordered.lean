/-!
# Ordered lists

Sets and tables are kept as strictly increasing lists, in which each element or key stands once.
`sort` orders a list by insertion; it is stable, and fast on lists that are nearly in order already,
as lists of places in a document are; `search` looks an element up in a list in increasing order.
-/

namespace BracketColoring.Ordered

section

variable {α β : Type} [LT α] [DecidableLT α] [DecidableEq α]

/-- Puts an element into a strictly increasing list, unless it is there. -/
def insert (x : α) : List α → List α
  | [] => [x]
  | y :: rest => if x < y then x :: y :: rest else if x = y then y :: rest else y :: insert x rest

/-- Puts several elements into a strictly increasing list. -/
def insertAll (xs : List α) (set : List α) : List α := xs.foldl (fun acc x => insert x acc) set

def distinct (xs : List α) : List α := insertAll xs []

/-- Puts an entry into a table in increasing order of keys; it replaces one with the same key. -/
def insertEntry (key : α) (value : β) : List (α × β) → List (α × β)
  | [] => [(key, value)]
  | (k, v) :: rest =>
    if key < k then (key, value) :: (k, v) :: rest
    else if key = k then (key, value) :: rest
    else (k, v) :: insertEntry key value rest

/-- The table of some entries, of which the last with each key counts. -/
def table (entries : List (α × β)) : List (α × β) :=
  entries.foldl (fun acc e => insertEntry e.1 e.2 acc) []

end

/-- Looks for an element in a list in increasing order: at every turn it looks at the middle of the
list and leaves out a half. -/
def search {α : Type} [LT α] [DecidableLT α] [DecidableEq α] (x : α) (xs : List α) : Bool :=
  match split : xs.drop (xs.length / 2) with
  | [] => false
  | y :: upper =>
    if x = y then true
    else if x < y then search x (xs.take (xs.length / 2))
    else search x upper
termination_by xs.length
decreasing_by
  all_goals
    have sized := congrArg List.length split
    simp only [List.length_cons, List.length_drop, List.length_take] at sized ⊢
    omega

/-- Puts an element into a list in decreasing order, before the elements that are not above it. -/
def insertDown {α : Type} (le : α → α → Bool) (x : α) : List α → List α
  | [] => [x]
  | y :: rest => if le y x then x :: y :: rest else y :: insertDown le x rest

/-- Sorts a list; elements that are equal under the order stay as they are. The list is built in
reverse, so that an element that comes last stays in front. -/
def sort {α : Type} (le : α → α → Bool) (xs : List α) : List α :=
  (xs.foldl (fun acc x => insertDown le x acc) []).reverse

end BracketColoring.Ordered
