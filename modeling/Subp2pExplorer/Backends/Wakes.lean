import Subp2pExplorer.Backends.Backends

/-! When a call that returns pending leaves the task to be polled again. Each
backend takes items it does not return, and only some of these wake the task. -/
namespace Subp2pExplorer.Backends
open Lib Notifications

section Contexts
variable {α : Type}

/-- No source that was polled gave an item. -/
def Context.Quiet (ctx : Context) : Prop := ∀ source, ctx.last source ≠ some .item

/-- A poll takes an item. -/
def Takes (polled : Poll (Option α)) : Prop := ∃ event, polled = .ready (some event)

end Contexts

section Actions
variable {α ς : Type} (run : α → ς → Option (Poll Unit × ς))

variable {run}

end Actions

section Litep2p
variable {ς Peer Addr PeerId Multiaddr : Type} {sources : Litep2pSources ς Peer Addr PeerId Multiaddr}
  {into : Conversion Peer Addr PeerId Multiaddr} {b b' : Litep2pBackend ς PeerId Multiaddr}
  {result : Poll (Option (NetworkEvent PeerId Multiaddr))} {ctx : Context}

end Litep2p

section Libp2p
variable {ς KadId Peer Addr PeerId Multiaddr : Type} [DecidableEq KadId] [DecidableEq Peer]
  {sources : Libp2pSources ς KadId Peer Addr} {into : Conversion Peer Addr PeerId Multiaddr}
  {fromBytes : Bytes → Option PeerId} {b b' : Libp2pBackend ς KadId Peer Addr}
  {result : Poll (Option (NetworkEvent PeerId Multiaddr))} {ctx : Context}

end Libp2p

end Subp2pExplorer.Backends
