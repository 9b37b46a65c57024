import PacketCache.QueueRuns

namespace PacketCache.QueueOrder

open PacketCache.BoundedQueue PacketCache.ImportQueue PacketCache.Messages PacketCache.QueueRuns

variable {Q : Type} {operations : Operations Q ServiceApi.Packet} {maximum : Nat}
variable {contents : Q → List ServiceApi.Packet} {s s' : State Q} {self : AddPacket}

end PacketCache.QueueOrder
