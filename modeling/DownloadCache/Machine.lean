import DownloadCache.Daemon

/-!
# A machine

A file system, the caches that have been opened on it, and those who listen on its sockets:
servers for these caches, a daemon in a process of its own, and a peer that answers one request
with octets fixed beforehand.  Whoever connects to a socket reaches the one who listens there.

One cache at a time is open for direct use.  A server belongs to the cache that was open when it
was started; the two go on together when another cache is opened, and a change that comes in over
a socket is seen by direct use of the same cache.
-/

namespace DownloadCache

set_option autoImplicit false

/-- A server at work. -/
structure Service where
  server : Server
  /-- The number of its cache. -/
  cache : Nat
deriving DecidableEq

/-- A listener that answers one request with fixed octets. -/
structure Peer where
  /-- The address at which it listens. -/
  address : Address
  reply : List UInt8
  /-- The line that it got. -/
  heard : List UInt8 := []
deriving DecidableEq

/-- Someone who listens on a socket. -/
inductive Listener where
  | service (service : Service)
  | daemon (daemon : Daemon)
  | peer (peer : Peer)
deriving DecidableEq

/-- The address at which someone listens. -/
def Listener.address? : Listener → Option Address
  | .service ⟨server, _⟩ => server.listener
  | .daemon ⟨_, server⟩ => server.listener
  | .peer ⟨address, _, _⟩ => some address

/-- A file system with those who use it. -/
structure Machine where
  files : FileSystem
  /-- The caches that have been opened; a cache is known by its position. -/
  caches : List Cache := []
  /-- The number of the cache that is open for direct use. -/
  opened : Option Nat := none
  /-- The server that was started last, until it is stopped. -/
  service : Option Service := none
  /-- The servers that were started before it and not stopped. -/
  earlier : List Service := []
  daemon : Option Daemon := none
  peer : Option Peer := none
deriving DecidableEq

namespace Machine

/-- The clock of the machine, which stands still: accesses are told apart by their tickets. -/
def clock : Nat → Instant :=
  fun _ => 0

/-! ## Caches -/

/-- Opens a cache for direct use in the place of the one that is open. -/
def openCache (machine : Machine) (directory : Path) (maxSize : UInt64) (verifySize : Bool) :
    Except OpeningError Path × Machine :=
  match machine.files.openCache directory maxSize verifySize with
  | (.ok cache, files) =>
      (.ok cache.directory,
        { machine with
          files
          caches := machine.caches ++ [cache]
          opened := some machine.caches.length })
  | (.error cause, files) => (.error cause, { machine with files, opened := none })

/-- The cache that is open for direct use. -/
def cache? (machine : Machine) : Option Cache :=
  machine.opened.bind fun number => machine.caches[number]?

/-- Carries out an operation on the cache of a number, if there is one. -/
def onCache {α : Type} (machine : Machine) (number : Nat) (operation : Site → α × Site) :
    Option α × Machine :=
  match machine.caches[number]? with
  | none => (none, machine)
  | some cache =>
      let (result, after) := operation ⟨cache, machine.files⟩
      (some result,
        { machine with files := after.files, caches := machine.caches.set number after.cache })

/-! ## Listeners -/

/-- All who listen on sockets. -/
def listeners (machine : Machine) : List Listener :=
  machine.service.toList.map .service ++ machine.earlier.map .service ++
    machine.daemon.toList.map .daemon ++ machine.peer.toList.map .peer

/-- The addresses at which someone listens. -/
def inUse (machine : Machine) : List Address :=
  machine.listeners.filterMap Listener.address?

/-- Who listens at an address. -/
def listener? (machine : Machine) (address : Address) : Option Listener :=
  machine.listeners.find? fun listener => listener.address? == some address

/-! ## Connections -/

/-- The octets of responses. -/
def octetsOf (responses : List Wire.Response) : List UInt8 :=
  responses.flatMap fun response => Text.Utf8.encode response.line

/-- Sends octets to the server of a cache, and gives what comes back. -/
def converse (sent : List UInt8) (site : Site) : List UInt8 × Site :=
  let (responses, after) := site.converse clock sent
  (octetsOf responses, after)

/-- Sends octets to whoever listens at an address, and takes what comes back. -/
def deliver (machine : Machine) (address : Address) (sent : List UInt8) :
    Except SystemError (List UInt8) × Machine :=
  match machine.listener? address with
  | none => (FileSystem.refuse .refused, machine)
  | some (.service service) =>
      let (received?, after) := machine.onCache service.cache (converse sent)
      (.ok (received?.getD []), after)
  | some (.daemon daemon) =>
      let (received, after) := converse sent ⟨daemon.cache, machine.files⟩
      (.ok received,
        { machine with files := after.files, daemon := some { daemon with cache := after.cache } })
  | some (.peer peer) =>
      (.ok peer.reply, { machine with peer := some { peer with heard := Client.firstLine sent } })

/-- Connects to a socket, sends octets and takes what comes back. -/
def exchange (machine : Machine) (socket : Path) (sent : List UInt8) :
    Except SystemError (List UInt8) × Machine :=
  match machine.files.connect socket with
  | .error cause => (.error cause, machine)
  | .ok address => machine.deliver address sent

/-- Sends a command to a socket as a client. -/
def request (machine : Machine) (socket : Path) (command : Wire.Command) :
    Except Client.RequestError Wire.Response × Machine :=
  let (received, after) := machine.exchange socket (Text.Utf8.encode (Client.line command))
  (Client.request socket received, after)

/-! ## Servers -/

/-- Starts a server for the cache of a number.  The server that was started last stays at work. -/
def startServer (machine : Machine) (cache : Nat) (socket : Path) :
    Except ServerError Unit × Machine :=
  match ({ socket } : Server).start machine.inUse machine.files with
  | (.error cause, files) => (.error cause, { machine with files })
  | (.ok server, files) =>
      (.ok (),
        { machine with
          files
          service := some ⟨server, cache⟩
          earlier := machine.service.toList ++ machine.earlier })

/-- Stops the server that was started last. -/
def stopServer (machine : Machine) : Except ServerError Unit × Machine :=
  match machine.service with
  | none => (.ok (), machine)
  | some service =>
      let (result, files) := service.server.stop machine.files
      (result, { machine with files, service := none })

/-! ## A peer with a fixed reply -/

/-- Lets a peer listen on a socket while something is done, and deletes the socket then. -/
def withPeer {α : Type} (machine : Machine) (socket : Path) (reply : List UInt8)
    (action : Machine → α × Machine) : Except SystemError (α × List UInt8) × Machine :=
  match machine.files.bind machine.inUse socket with
  | .error cause => (.error cause, machine)
  | .ok (address, files) =>
      let (result, after) := action { machine with files, peer := some ⟨address, reply, []⟩ }
      let heard := (after.peer.map (·.heard)).getD []
      let cleaned := match after.files.unlink socket with
        | .ok cleaned => cleaned
        | .error _ => after.files
      (.ok (result, heard), { after with files := cleaned, peer := none })

/-! ## The program -/

/-- Starts the daemon. -/
def startDaemon (machine : Machine) (config : Config) : Except Exit Unit × Machine :=
  match Daemon.start machine.files machine.inUse config with
  | (.error exit, files) => (.error exit, { machine with files })
  | (.ok daemon, files) => (.ok (), { machine with files, daemon := some daemon })

/-- Stops the daemon. -/
def stopDaemon (machine : Machine) : Exit × Machine :=
  match machine.daemon with
  | none => ({}, machine)
  | some daemon =>
      let (exit, files) := daemon.stop machine.files
      (exit, { machine with files, daemon := none })

/-- Runs the program; a daemon that starts is interrupted at once. -/
def run (machine : Machine) (environment : Environment) (arguments : List String) :
    Exit × Machine :=
  match Job.prepare machine.files environment arguments with
  | .error exit => (exit, machine)
  | .ok (.ask socket command) =>
      let (result, after) := machine.request socket command
      (.asked command result, after)
  | .ok (.serve config) =>
      match machine.startDaemon config with
      | (.error exit, after) => (exit, after)
      | (.ok (), started) => started.stopDaemon

/-- Runs the program as a daemon, sends octets to a socket once it is ready, and interrupts
it. -/
def runDaemon (machine : Machine) (environment : Environment) (arguments : List String)
    (socket : Path) (sent : List UInt8) : (List UInt8 × Exit) × Machine :=
  match Job.prepare machine.files environment arguments with
  | .error exit => (([], exit), machine)
  | .ok (.ask target command) =>
      let (result, after) := machine.request target command
      (([], .asked command result), after)
  | .ok (.serve config) =>
      match machine.startDaemon config with
      | (.error exit, after) => (([], exit), after)
      | (.ok (), started) =>
          let (received, after) := started.exchange socket sent
          let (exit, stopped) := after.stopDaemon
          ((received.toOption.getD [], exit), stopped)

end Machine

end DownloadCache
