import Subp2pExplorer.Types.Multiaddr

/-! Addresses of the core crate over the addresses of litep2p, whatever these
are inside. Every operation converts components on the way in and on the way
out, so what the library promises of its own components holds of the crate's. -/
namespace Subp2pExplorer.Types

/-- litep2p's `Multiaddr`, as it documents its operations. -/
structure LiteP2pAddresses (Address : Type) where
  empty : Address
  push : Address → LiteP2pProtocol → Address
  /-- The last component, and the address without it. -/
  pop : Address → Option LiteP2pProtocol × Address
  withProtocol : Address → LiteP2pProtocol → Address
  iter : Address → List LiteP2pProtocol
  fromIter : List LiteP2pProtocol → Address
  ofProtocol : LiteP2pProtocol → Address
  iter_empty : iter empty = []
  iter_push : ∀ address p, iter (push address p) = iter address ++ [p]
  pop_push : ∀ address p, pop (push address p) = (some p, address)
  with_protocol_push : ∀ address p, withProtocol address p = push address p
  from_iter_push : ∀ components, fromIter components = components.foldl push empty
  of_protocol_push : ∀ p, ofProtocol p = push empty p

/-- `Multiaddr` of the core crate, a litep2p address inside. -/
structure Wrapped (Address : Type) where
  multiaddr : Address

namespace Wrapped
variable {Address : Type} (lib : LiteP2pAddresses Address)

def empty : Wrapped Address := ⟨lib.empty⟩

def push (address : Wrapped Address) (p : Protocol) : Wrapped Address :=
  { address with multiaddr := lib.push address.multiaddr p.toLiteP2p }

def pop (address : Wrapped Address) : Option Protocol × Wrapped Address :=
  let (last, multiaddr) := lib.pop address.multiaddr
  (last.map Protocol.ofLiteP2p, { address with multiaddr })

/-- `with`, which is `push` of the consumed address. -/
def withProtocol (address : Wrapped Address) (p : Protocol) : Wrapped Address :=
  ⟨lib.withProtocol address.multiaddr p.toLiteP2p⟩

def iter (address : Wrapped Address) : List Protocol := (lib.iter address.multiaddr).map Protocol.ofLiteP2p

def fromIter (components : List Protocol) : Wrapped Address :=
  ⟨lib.fromIter (components.map Protocol.toLiteP2p)⟩

def ofProtocol (p : Protocol) : Wrapped Address := ⟨lib.ofProtocol p.toLiteP2p⟩

variable {lib}

@[simp] theorem iter_empty : (empty lib).iter lib = [] := by
  simp [iter, empty, lib.iter_empty]

@[simp] theorem iter_push (address : Wrapped Address) (p : Protocol) :
    (address.push lib p).iter lib = address.iter lib ++ [p] := by
  simp [iter, push, lib.iter_push]

@[simp] theorem with_protocol_push (address : Wrapped Address) (p : Protocol) :
    address.withProtocol lib p = address.push lib p := by
  simp [withProtocol, push, lib.with_protocol_push]

@[simp] theorem pop_push (address : Wrapped Address) (p : Protocol) :
    (address.push lib p).pop lib = (some p, address) := by
  simp [pop, push, lib.pop_push]

/-- Collecting is pushing one component after the other. -/
theorem from_iter_push (components : List Protocol) :
    fromIter lib components = components.foldl (push lib) (empty lib) := by
  have inside : ∀ (components : List Protocol) (address : Address),
      (⟨(components.map Protocol.toLiteP2p).foldl lib.push address⟩ : Wrapped Address) =
        components.foldl (push lib) ⟨address⟩ := by
    intro components
    induction components with
    | nil => exact fun _ => rfl
    | cons p components ih => exact fun address => ih (lib.push address p.toLiteP2p)
  unfold fromIter
  rw [lib.from_iter_push]
  exact inside components lib.empty

theorem of_protocol_from_iter (p : Protocol) : ofProtocol lib p = fromIter lib [p] := by
  rw [from_iter_push]
  simp [ofProtocol, push, empty, lib.of_protocol_push]

/-- Pushed components are iterated behind those that were there. -/
theorem iter_push_all (components : List Protocol) (address : Wrapped Address) :
    (components.foldl (push lib) address).iter lib = address.iter lib ++ components := by
  induction components generalizing address with
  | nil => simp
  | cons p components ih =>
    rw [List.foldl_cons, ih]
    simp

theorem from_iter_append (front back : List Protocol) :
    fromIter lib (front ++ back) = back.foldl (push lib) (fromIter lib front) := by
  simp only [from_iter_push, List.foldl_append]

/-- Components make the way to litep2p and back unchanged, both ways, and so do
the addresses made of them. -/
theorem components_kept {Address : Type} (lib : LiteP2pAddresses Address) :
    (∀ p : Protocol, Protocol.ofLiteP2p p.toLiteP2p = p) ∧
    (∀ p : LiteP2pProtocol, (Protocol.ofLiteP2p p).toLiteP2p = p) ∧
    (∀ components, (fromIter lib components).iter lib = components) ∧
    (∀ (address : Wrapped Address) p, (address.withProtocol lib p).pop lib = (some p, address)) ∧
    (∀ front back, fromIter lib (front ++ back) = back.foldl (push lib) (fromIter lib front)) ∧
    ∀ (address : Wrapped Address) components,
      (components.foldl (push lib) address).iter lib = address.iter lib ++ components := by
  refine ⟨Protocol.of_lite_to_lite, Protocol.to_lite_of_lite, fun components => ?_, fun address p => ?_,
    from_iter_append, fun address components => iter_push_all components address⟩
  · rw [from_iter_push, iter_push_all]
    simp
  · simp

end Wrapped

/-- Addresses that are the list of their components. -/
def LiteP2pAddresses.components : LiteP2pAddresses LiteP2pMultiaddr where
  empty := []
  push address p := address ++ [p]
  pop address := (address.getLast?, address.dropLast)
  withProtocol address p := address ++ [p]
  iter := id
  fromIter := id
  ofProtocol p := [p]
  iter_empty := rfl
  iter_push _ _ := rfl
  pop_push address p := by simp
  with_protocol_push _ _ := rfl
  from_iter_push components := by
    have inside : ∀ (components address : LiteP2pMultiaddr),
        components.foldl (fun address p => address ++ [p]) address = address ++ components := by
      intro components
      induction components with
      | nil => simp
      | cons p components ih =>
        intro address
        rw [List.foldl_cons, ih]
        simp
    exact (inside components []).symm
  of_protocol_push _ := rfl

namespace Multiaddr

/-- The addresses that go to libp2p are these, over lists of components. -/
theorem wrapped_components :
    empty.multiaddr = (Wrapped.empty .components).multiaddr ∧
    (∀ address p, (push address p).multiaddr = (Wrapped.push .components ⟨address.multiaddr⟩ p).multiaddr) ∧
    (∀ address, iter address = Wrapped.iter .components ⟨address.multiaddr⟩) ∧
    ∀ components, (fromIter components).multiaddr = (Wrapped.fromIter .components components).multiaddr :=
  ⟨rfl, fun _ _ => rfl, fun _ => rfl, fun _ => rfl⟩

end Multiaddr
end Subp2pExplorer.Types
