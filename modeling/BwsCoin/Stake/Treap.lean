import BwsCoin.Basic
import BwsCoin.Lib.BinaryTree
import BwsCoin.Stake.ParentStack

/-!
# The ticket treap (`src/stake/treap/`)

An immutable treap of tickets: keys are ticket hashes, values carry the ticket's height and
state flags, and a node's priority is the height given when its key was first inserted, so
the tree is a min-heap on heights and `forEachByHeight` can stop early.

The C++ updates the tree with an explicit stack of the cloned path; the model of `put` and
`deleteKey` is the same descent written as recursion over Mathlib's `BinaryTree` (`nil` is
`nullptr`), returning the new nodes. Each definition says which loop of the source it is:

* `putAux` is the descent of `TicketTreap::put` together with its rotation loop: a new node
  is hung below the last node of the path, every node on the path has its `size` raised by
  one, and the new node is rotated up while its priority is below its parent's, with the
  source's `size` arithmetic at each rotation (`bubbleLeft`, `bubbleRight`);
* `deleteAux` is the descent of `TicketTreap::deleteKey` (every node on the path cloned with
  `size - 1`) and `sinkDelete` its rotation loop, which moves the doomed node down towards the
  child of smaller priority until it is a leaf and drops it;
* `pushLeft` and `walkParents` are the two walks of `forEach` and `forEachByHeight` as the
  source runs them, over the `ParentStack` of `Stake/ParentStack.lean`; a callback with
  captured state is a function of the state, `f key value s = (continue?, s')`.

Counters are natural numbers (`count` is an `int`, `size` a `uint32`); the model does not
represent trees of `2^31` nodes.
-/

namespace BwsCoin.Stake

open BinaryTree

/-- The ticket data stored in the treap.
Source: `src/stake/treap/value.h` `Value`
Kind: D
Fidelity: exact -/
structure Value where
  /-- The block height of the ticket. -/
  height : UInt32
  /-- The ticket was selected and not voted, or expired. -/
  missed : Bool
  /-- The missed ticket was revoked. -/
  revoked : Bool
  /-- The ticket voted. -/
  spent : Bool
  /-- The ticket expired. -/
  expired : Bool
  deriving DecidableEq, Repr

/-- A treap node without its children (`left`, `right` are the children of the enclosing
`BinaryTree.node`).
Source: `src/stake/treap/treapnode.h` `TreapNode`
Kind: D
Fidelity: exact -/
structure TreapNode where
  /-- The ticket hash. -/
  key : Uint256
  /-- The ticket data. -/
  value : Value
  /-- The heap priority: the value's height when the key was inserted. -/
  priority : UInt32
  /-- The number of nodes of the subtree, the node included. -/
  size : Nat
  deriving DecidableEq, Repr

/-- `TreapNode::leftSize` / `rightSize`: the `size` field of a child, `0` for `nullptr`.
Source: `src/stake/treap/treapnode.cpp` `TreapNode::leftSize`, `TreapNode::rightSize`
Kind: D -/
def subtreeSize : BinaryTree TreapNode → Nat
  | nil => 0
  | node d _ _ => d.size

/-- `sizeof(TreapNode)` on x86-64: a 32-byte key, an 8-byte `Value`, two `uint32` fields and
two 16-byte `shared_ptr`s.
Source: `src/stake/treap/treapnode.h` `TreapNode`
Kind: D -/
def sizeofTreapNode : Nat := 80

/-- The treap: its root, the number of items and the byte estimate.
Source: `src/stake/treap/tickettreap.h` `TicketTreap`
Kind: D
Fidelity: exact -/
structure TicketTreap where
  /-- The root node (`nil` for an empty treap). -/
  root : BinaryTree TreapNode
  /-- `count`, the number of items. -/
  count : Nat
  /-- `totalSize`, the estimated bytes. -/
  totalSize : Nat
  deriving DecidableEq, Repr

namespace TicketTreap

/-- `TicketTreap()`.
Source: `src/stake/treap/tickettreap.cpp` `TicketTreap::TicketTreap`
Kind: D -/
def empty : TicketTreap := ⟨nil, 0, 0⟩

/-- Source: `src/stake/treap/tickettreap.cpp` `TicketTreap::len`. Kind: D -/
def len (t : TicketTreap) : Nat := t.count

/-- Source: `src/stake/treap/tickettreap.cpp` `TicketTreap::size`. Kind: D -/
def size (t : TicketTreap) : Nat := t.totalSize

/-- The node holding `key`, found by descending by comparisons.
Source: `src/stake/treap/tickettreap.cpp` `TicketTreap::get_node`
Kind: D
Fidelity: exact -/
def getNode (t : TicketTreap) (key : Uint256) : Option TreapNode :=
  t.root.search TreapNode.key key

/-- Source: `src/stake/treap/tickettreap.cpp` `TicketTreap::has`. Kind: D -/
def has (t : TicketTreap) (key : Uint256) : Bool := (t.getNode key).isSome

/-- Source: `src/stake/treap/tickettreap.cpp` `TicketTreap::get`. Kind: D -/
def get (t : TicketTreap) (key : Uint256) : Option Value := (t.getNode key).map TreapNode.value

/-! ## `put` -/

/-- What `put`'s descent returns for a subtree: the key was found and its node replaced, or a
new node was linked in; `rising` says that the rotation loop is still running, i.e. the new
node is the subtree's root and has not yet met a parent of lower or equal priority.
Source: `src/stake/treap/tickettreap.cpp` `TicketTreap::put`
Kind: D -/
inductive PutResult where
  /-- The key existed; the subtree with the value replaced. -/
  | replaced (t : BinaryTree TreapNode)
  /-- A new node was linked in. -/
  | inserted (t : BinaryTree TreapNode) (rising : Bool)

/-- One turn of `put`'s rotation loop with the new node on the left of `parent` (whose
`size` has already been raised): stop when the node's priority is at least the parent's,
otherwise rotate right with the source's `size` updates.
Source: `src/stake/treap/tickettreap.cpp` `TicketTreap::put` (right rotation)
Kind: D
Fidelity: exact -/
def bubbleLeft (parent : TreapNode) (l' r : BinaryTree TreapNode) : Bool → PutResult
  | true =>
    match l' with
    | node n nl nr =>
      if n.priority ≥ parent.priority then .inserted (node parent l' r) false
      else
        .inserted (node { n with size := n.size + (1 + subtreeSize r) } nl
          (node { parent with size := parent.size - (1 + subtreeSize nl) } nr r)) true
    | nil => .inserted (node parent l' r) false
  | false => .inserted (node parent l' r) false

/-- One turn of `put`'s rotation loop with the new node on the right of `parent`: the left
rotation.
Source: `src/stake/treap/tickettreap.cpp` `TicketTreap::put` (left rotation)
Kind: D
Fidelity: exact -/
def bubbleRight (parent : TreapNode) (l r' : BinaryTree TreapNode) : Bool → PutResult
  | true =>
    match r' with
    | node n nl nr =>
      if n.priority ≥ parent.priority then .inserted (node parent l r') false
      else
        .inserted (node { n with size := n.size + (1 + subtreeSize l) }
          (node { parent with size := parent.size - (1 + subtreeSize nr) } l nl) nr) true
    | nil => .inserted (node parent l r') false
  | false => .inserted (node parent l r') false

/-- `put` below a non-empty node: descend by comparisons; replace the value where the key
is found; otherwise link a new node (priority `value.height`, size `1`), raise the size of
every node on the path and run the rotation loop on the way back up.
Source: `src/stake/treap/tickettreap.cpp` `TicketTreap::put`
Kind: D
Fidelity: exact -/
def putAux (key : Uint256) (value : Value) : BinaryTree TreapNode → PutResult
  | nil => .inserted (node ⟨key, value, value.height, 1⟩ nil nil) true
  | node d l r =>
    match compare key d.key with
    | .lt =>
      match putAux key value l with
      | .replaced l' => .replaced (node d l' r)
      | .inserted l' rising => bubbleLeft { d with size := d.size + 1 } l' r rising
    | .gt =>
      match putAux key value r with
      | .replaced r' => .replaced (node d l r')
      | .inserted r' rising => bubbleRight { d with size := d.size + 1 } l r' rising
    | .eq => .replaced (node { d with value := value } l r)

/-- Insert or replace `key`; the result shares every node off the path with `t`.
Source: `src/stake/treap/tickettreap.cpp` `TicketTreap::put`
Kind: D
Fidelity: exact -/
def put (t : TicketTreap) (key : Uint256) (value : Value) : TicketTreap :=
  match t.root with
  | nil => ⟨node ⟨key, value, value.height, 1⟩ nil nil, 1, sizeofTreapNode⟩
  | root@(node _ _ _) =>
    match putAux key value root with
    | .replaced r => ⟨r, t.count, t.totalSize⟩
    | .inserted r _ => ⟨r, t.count + 1, t.totalSize + sizeofTreapNode⟩

/-! ## `deleteKey` -/

/-- The rotation loop of `deleteKey`: the node to delete has children `l` and `r`; it is
rotated below the child of smaller priority (the left one on a tie), that child's clone
gaining the size of the other side, until it is a leaf, and then dropped. The result is
what takes the deleted node's place.
Source: `src/stake/treap/tickettreap.cpp` `TicketTreap::deleteKey` (rotation loop)
Kind: D
Fidelity: exact -/
def sinkDelete : BinaryTree TreapNode → BinaryTree TreapNode → BinaryTree TreapNode
  | nil, nil => nil
  | nil, node c cl cr => node { c with size := c.size + subtreeSize nil } (sinkDelete nil cl) cr
  | node c cl cr, nil => node { c with size := c.size + subtreeSize nil } cl (sinkDelete cr nil)
  | node a al ar, node b bl br =>
    if a.priority ≤ b.priority then
      node { a with size := a.size + b.size } al (sinkDelete ar (node b bl br))
    else
      node { b with size := b.size + a.size } (sinkDelete (node a al ar) bl) br
termination_by l r => (l, r)

/-- The descent of `deleteKey` once the key is known to be present: every node on the path
is cloned with `size - 1`, and the node holding the key is replaced by `sinkDelete`.
Source: `src/stake/treap/tickettreap.cpp` `TicketTreap::deleteKey`
Kind: D
Fidelity: exact -/
def deleteAux (key : Uint256) : BinaryTree TreapNode → BinaryTree TreapNode
  | nil => nil
  | node d l r =>
    match compare key d.key with
    | .lt => node { d with size := d.size - 1 } (deleteAux key l) r
    | .gt => node { d with size := d.size - 1 } l (deleteAux key r)
    | .eq => sinkDelete l r

/-- Remove `key`: `t` itself when the key is absent, the empty treap when the key is the only
node, and otherwise the rebuilt path with the rotation loop.
Source: `src/stake/treap/tickettreap.cpp` `TicketTreap::deleteKey`
Kind: D
Fidelity: exact -/
def deleteKey (t : TicketTreap) (key : Uint256) : TicketTreap :=
  match t.getNode key with
  | none => t
  | some _ =>
    match t.root with
    | node d nil nil =>
      if key = d.key then ⟨nil, 0, 0⟩ else ⟨deleteAux key t.root, t.count - 1, t.totalSize - sizeofTreapNode⟩
    | _ => ⟨deleteAux key t.root, t.count - 1, t.totalSize - sizeofTreapNode⟩

/-! ## Traversals -/

/-- The `for` loops of the walks: push `node` and then its left child, its left child's left
child and so on, stopping at `nullptr` or at the first node `keep` refuses.
Source: `src/stake/treap/tickettreap.cpp` `TicketTreap::forEach`,
`TicketTreap::forEachByHeight` (the loops over `node->left`)
Kind: D
Fidelity: exact -/
def pushLeft (keep : TreapNode → Bool) (parents : ParentStack (BinaryTree TreapNode)) :
    BinaryTree TreapNode → ParentStack (BinaryTree TreapNode)
  | nil => parents
  | node d l r => if keep d then pushLeft keep (parents.push (node d l r)) l else parents

/-- The `while` loop of the walks: pop a node, call `func` on it and return on `false`, and
push the left chain of its right child; a popped `nullptr` is dereferenced.
Source: `src/stake/treap/tickettreap.cpp` `TicketTreap::forEach`,
`TicketTreap::forEachByHeight` (the `while (parents.len() > 0)` loops)
Kind: D
Fidelity: bounded: `fuel` turns of the loop. The callers give one turn per node of the tree,
which the source never exceeds: each turn pops a pushed node and clears its slot, and a node is
pushed at most once, with the root's left chain or when the nearest ancestor whose right subtree
holds it is popped -/
def walkParents {σ : Type} (keep : TreapNode → Bool) (func : Uint256 → Value → σ → Bool × σ) :
    Nat → ParentStack (BinaryTree TreapNode) → σ → Except Fault σ
  | 0, parents, s => if parents.len > 0 then .error .diverge else .ok s
  | fuel + 1, parents, s =>
    if parents.len > 0 then
      match parents.pop with
      | (some (node d _ r), parents) =>
        match func d.key d.value s with
        | (false, s) => .ok s
        | (true, s) => walkParents keep func fuel (pushLeft keep parents r) s
      | _ => .error .nullDeref
    else .ok s

/-- The walk of `forEach` and `forEachByHeight` from a fresh `ParentStack`, descending only
into the nodes `keep` accepts.
Source: `src/stake/treap/tickettreap.cpp` `TicketTreap::forEach`,
`TicketTreap::forEachByHeight`
Kind: D
Fidelity: bounded, as `walkParents` -/
def walk {σ : Type} (keep : TreapNode → Bool) (t : TicketTreap)
    (func : Uint256 → Value → σ → Bool × σ) (s : σ) : Except Fault σ :=
  walkParents keep func t.root.numNodes (pushLeft keep ParentStack.empty t.root) s

/-- The in-order walk that does not descend into a node of priority `heightLessThan` or more.
Source: `src/stake/treap/tickettreap.cpp` `TicketTreap::forEachByHeight`
Kind: D -/
def forEachByHeight {σ : Type} (t : TicketTreap) (heightLessThan : UInt32)
    (func : Uint256 → Value → σ → Bool × σ) (s : σ) : Except Fault σ :=
  walk (fun d => decide (d.priority < heightLessThan)) t func s

/-! ## Rank selection -/

/-- The loop of `TreapNode::getByIndex` after its bounds check: go left while the index is
below the left size, stop at the node when it equals it, and go right with the index reduced
otherwise; reaching `nullptr` dereferences it.
Source: `src/stake/treap/treapnode.cpp` `TreapNode::getByIndex`
Kind: D
Fidelity: exact -/
def getByIndexLoop : BinaryTree TreapNode → Int → Except Fault (Uint256 × Value)
  | nil, _ => .error .nullDeref
  | node d nil r, idx =>
    if idx = 0 then .ok (d.key, d.value) else getByIndexLoop r (idx - 1)
  | node d l@(node c _ _) r, idx =>
    if idx < c.size then getByIndexLoop l idx
    else if idx = c.size then .ok (d.key, d.value)
    else getByIndexLoop r (idx - c.size - 1)

/-- `TicketTreap::getByIndex` with `TreapNode::getByIndex`: the entry at in-order position
`idx`, throwing when the treap is empty or `idx` is out of `[0, size)`.
Source: `src/stake/treap/tickettreap.cpp` `TicketTreap::getByIndex`,
`src/stake/treap/treapnode.cpp` `TreapNode::getByIndex`
Kind: D
Fidelity: exact -/
def getByIndex (t : TicketTreap) (idx : Int) : Except Fault (Uint256 × Value) :=
  match t.root with
  | nil => .error (.raise "Root node was not set!")
  | root@(node d _ _) =>
    if idx < 0 ∨ idx ≥ d.size then
      .error (.raise ("getByIndex(" ++ toString idx ++ ") index out of bounds"))
    else getByIndexLoop root idx

/-- The keys at the ranks `idxs`, in the order of `idxs`.
Source: `src/stake/treap/tickettreap.cpp` `TicketTreap::fetchWinners`
Kind: D
Fidelity: exact -/
def fetchWinners (t : TicketTreap) (idxs : List UInt32) : Except Fault (List Uint256) :=
  if t.len = 0 then .error (.raise "Empty treap!")
  else idxs.mapM fun idx =>
    if idx.toNat ≥ t.len then .error (.raise "idx out of bounds!")
    else (t.getByIndex idx.toNat).map Prod.fst

end TicketTreap

end BwsCoin.Stake
