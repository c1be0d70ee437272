import TwoWaySql.Template.Tree

/-!
# The cache of parsed templates

The cache keeps the trees of the templates used last, under their texts. When it is full, a new
template takes the place of the one whose last use is longest ago. A cache of capacity zero keeps
nothing.
-/

namespace TwoWaySql

open Template (Tree)

structure Cache where
  capacity : Nat
  trees : List (String × Tree)
  /-- The texts in the order of their last use, the latest last. -/
  recency : List String

namespace Cache

/-- The capacity of a cache unless another one is given. -/
def defaultCapacity : Nat := 100

def empty (capacity : Nat) : Cache := ⟨capacity, [], []⟩

def size (c : Cache) : Nat := c.trees.length

def isEmpty (c : Cache) : Bool := c.trees.isEmpty

def contains (c : Cache) (text : String) : Bool := (c.trees.lookup text).isSome

/-- Makes a text the latest one used. -/
def touch (recency : List String) (text : String) : List String := recency.erase text ++ [text]

/-- The tree of a text; to look it up is to use it. -/
def get (c : Cache) (text : String) : Option Tree × Cache :=
  match c.trees.lookup text with
  | none => (none, c)
  | some tree => (some tree, { c with recency := touch c.recency text })

def removeTree (c : Cache) (text : String) : Cache :=
  { c with trees := c.trees.filter (·.1 ≠ text) }

/-- Gives up the text whose last use is longest ago. -/
def evict (c : Cache) : Cache :=
  match c.recency with
  | [] => c
  | text :: recency => { c.removeTree text with recency }

/-- Keeps a tree under a text. -/
def insert (c : Cache) (text : String) (tree : Tree) : Cache :=
  if c.capacity = 0 then c
  else
    let c :=
      if c.contains text then { c with recency := c.recency.erase text }
      else if c.capacity ≤ c.size then c.evict
      else c
    { c with
      trees := (text, tree) :: (c.removeTree text).trees
      recency := c.recency ++ [text] }

def clear (c : Cache) : Cache := empty c.capacity

/-- The cache as logs and messages name it. -/
def describe (c : Cache) : String :=
  "NodeCache \x7b len: " ++ toString c.size ++ ", max_size: " ++ toString c.capacity ++ " \x7d"

end Cache

end TwoWaySql
