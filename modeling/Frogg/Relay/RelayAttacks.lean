/-
  Subject:   What a relay can bring about: honest delivery, reflection, delivery after a failure.
-/
import Frogg.Relay.RelayShutOut

namespace Frogg.Relay

open HostileRelay List

section

variable {lib : Packages} {clientKeyPair daemonKeyPair : KeyPair} {α : Type}

/-- What belongs to the client and what to the daemon. -/
def bySide (ofClient ofDaemon : α) : Side → α
  | .client => ofClient
  | .daemon => ofDaemon

@[simp] theorem update_bySide_client (a b x : α) :
    Function.update (bySide a b) .client x = bySide x b := by
  funext side
  cases side <;> rfl

@[simp] theorem update_bySide_daemon (a b x : α) :
    Function.update (bySide a b) .daemon x = bySide a x := by
  funext side
  cases side <;> rfl

section

variable (lib) (clientKeyPair daemonKeyPair) (nonce : Nonce) (m : Message)

end

section

variable {nonce : Nonce} {m : Message}

variable (events : List ChannelEvent)

end

end

end Frogg.Relay
