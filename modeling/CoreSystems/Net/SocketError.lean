import CoreSystems.Net.Native

/-!
# CoreSystems.Net.SocketError

`net::SocketError` and `net::SocketResult`, over what the headers of a platform decide.

A `std::error_code` is a category and a value. Comparing one with a `std::errc` is the
standard library's business, except that on Winsock `SocketError::Matches` first looks
the value up in a table of its own.

`Platform` collects what the headers and the standard library of one platform decide: the
values of macros and of `std::errc`, the layout of the native structures, and which values the
system category holds to be which conditions. The library is modelled for any such platform,
so that what is proved of it holds on POSIX and on Windows alike. Its few propositions are
facts a compiler checks or a header promises: no condition has the value 0, and the labels of
a `switch` differ.

`Platform.linux` and `Platform.win64` are two platforms with the values of their headers.
-/

namespace CoreSystems

namespace Net

/-! ### Platforms

The enumerators of `std::errc` keep the order of the standard; their values differ between
platforms and are a field of `Platform`. -/

/-- `std::errc`. -/
inductive Errc
  | addressFamilyNotSupported
  | addressInUse
  | addressNotAvailable
  | alreadyConnected
  | argumentListTooLong
  | argumentOutOfDomain
  | badAddress
  | badFileDescriptor
  | badMessage
  | brokenPipe
  | connectionAborted
  | connectionAlreadyInProgress
  | connectionRefused
  | connectionReset
  | crossDeviceLink
  | destinationAddressRequired
  | deviceOrResourceBusy
  | directoryNotEmpty
  | executableFormatError
  | fileExists
  | fileTooLarge
  | filenameTooLong
  | functionNotSupported
  | hostUnreachable
  | identifierRemoved
  | illegalByteSequence
  | inappropriateIoControlOperation
  | interrupted
  | invalidArgument
  | invalidSeek
  | ioError
  | isADirectory
  | messageSize
  | networkDown
  | networkReset
  | networkUnreachable
  | noBufferSpace
  | noChildProcess
  | noLink
  | noLockAvailable
  | noMessage
  | noMessageAvailable
  | noProtocolOption
  | noSpaceOnDevice
  | noStreamResources
  | noSuchDevice
  | noSuchDeviceOrAddress
  | noSuchFileOrDirectory
  | noSuchProcess
  | notADirectory
  | notASocket
  | notAStream
  | notConnected
  | notEnoughMemory
  | notSupported
  | operationCanceled
  | operationInProgress
  | operationNotPermitted
  | operationNotSupported
  | operationWouldBlock
  | ownerDead
  | permissionDenied
  | protocolError
  | protocolNotSupported
  | readOnlyFileSystem
  | resourceDeadlockWouldOccur
  | resourceUnavailableTryAgain
  | resultOutOfRange
  | stateNotRecoverable
  | streamTimeout
  | textFileBusy
  | timedOut
  | tooManyFilesOpen
  | tooManyFilesOpenInSystem
  | tooManyLinks
  | tooManySymbolicLinkLevels
  | valueTooLarge
  | wrongProtocolType
  deriving DecidableEq, Repr

/-- `net::SocketShutdown`. An `enum class` can hold a value that is no enumerator. -/
inductive SocketShutdown
  | receive
  | send
  | both
  | other (value : Nat)
  deriving DecidableEq, Repr

/-- What the headers of a platform define. `layout` is for the native addresses of
`CoreSystems.Net.Native`; the other fields are the macros that the sources name. -/
structure Platform where
  /-- `_WIN32` is defined. -/
  windows : Bool
  layout : Layout
  /-- The values of the `std::errc` enumerators. -/
  errc : Errc → Int
  /-- `std::system_category()` holds a value to be equivalent to a condition. Which values it
  knows is up to the standard library. -/
  systemEquivalent : Int → Errc → Bool
  SOCK_STREAM : Nat
  SOCK_DGRAM : Nat
  IPPROTO_TCP : Nat
  IPPROTO_UDP : Nat
  SOL_SOCKET : Nat
  /-- `SO_NOSIGPIPE` and `MSG_NOSIGNAL`, where they are defined. -/
  SO_NOSIGPIPE : Option Nat
  MSG_NOSIGNAL : Option Nat
  /-- `SHUT_RD`, `SHUT_WR` and `SHUT_RDWR`, or their `SD_` namesakes. -/
  SHUT_RD : Nat
  SHUT_WR : Nat
  SHUT_RDWR : Nat
  WSAEWOULDBLOCK : Int
  WSAEINTR : Int
  WSAECONNRESET : Int
  WSAECONNREFUSED : Int
  WSAETIMEDOUT : Int
  WSAEADDRINUSE : Int
  WSAECONNABORTED : Int
  WSAENOTCONN : Int
  WSAEMSGSIZE : Int
  errc_ne_zero : ∀ c, errc c ≠ 0
  /-- `EMSGSIZE` is the value of no other condition. -/
  messageSize_unique : ∀ c, errc c = errc .messageSize → c = .messageSize
  /-- The labels of a `switch` differ. -/
  wsa_nodup : [WSAEWOULDBLOCK, WSAEINTR, WSAECONNRESET, WSAECONNREFUSED, WSAETIMEDOUT,
    WSAEADDRINUSE, WSAECONNABORTED, WSAENOTCONN, WSAEMSGSIZE].Nodup
  wsaeMsgSize_ne_zero : WSAEMSGSIZE ≠ 0

/-- The error values of Linux. -/
def linuxErrc : Errc → Int
  | .addressFamilyNotSupported => 97
  | .addressInUse => 98
  | .addressNotAvailable => 99
  | .alreadyConnected => 106
  | .argumentListTooLong => 7
  | .argumentOutOfDomain => 33
  | .badAddress => 14
  | .badFileDescriptor => 9
  | .badMessage => 74
  | .brokenPipe => 32
  | .connectionAborted => 103
  | .connectionAlreadyInProgress => 114
  | .connectionRefused => 111
  | .connectionReset => 104
  | .crossDeviceLink => 18
  | .destinationAddressRequired => 89
  | .deviceOrResourceBusy => 16
  | .directoryNotEmpty => 39
  | .executableFormatError => 8
  | .fileExists => 17
  | .fileTooLarge => 27
  | .filenameTooLong => 36
  | .functionNotSupported => 38
  | .hostUnreachable => 113
  | .identifierRemoved => 43
  | .illegalByteSequence => 84
  | .inappropriateIoControlOperation => 25
  | .interrupted => 4
  | .invalidArgument => 22
  | .invalidSeek => 29
  | .ioError => 5
  | .isADirectory => 21
  | .messageSize => 90
  | .networkDown => 100
  | .networkReset => 102
  | .networkUnreachable => 101
  | .noBufferSpace => 105
  | .noChildProcess => 10
  | .noLink => 67
  | .noLockAvailable => 37
  | .noMessage => 42
  | .noMessageAvailable => 61
  | .noProtocolOption => 92
  | .noSpaceOnDevice => 28
  | .noStreamResources => 63
  | .noSuchDevice => 19
  | .noSuchDeviceOrAddress => 6
  | .noSuchFileOrDirectory => 2
  | .noSuchProcess => 3
  | .notADirectory => 20
  | .notASocket => 88
  | .notAStream => 60
  | .notConnected => 107
  | .notEnoughMemory => 12
  | .notSupported => 95
  | .operationCanceled => 125
  | .operationInProgress => 115
  | .operationNotPermitted => 1
  | .operationNotSupported => 95
  | .operationWouldBlock => 11
  | .ownerDead => 130
  | .permissionDenied => 13
  | .protocolError => 71
  | .protocolNotSupported => 93
  | .readOnlyFileSystem => 30
  | .resourceDeadlockWouldOccur => 35
  | .resourceUnavailableTryAgain => 11
  | .resultOutOfRange => 34
  | .stateNotRecoverable => 131
  | .streamTimeout => 62
  | .textFileBusy => 26
  | .timedOut => 110
  | .tooManyFilesOpen => 24
  | .tooManyFilesOpenInSystem => 23
  | .tooManyLinks => 31
  | .tooManySymbolicLinkLevels => 40
  | .valueTooLarge => 75
  | .wrongProtocolType => 91

/-- Linux on x86-64. The Winsock codes are there for completeness; nothing reads them. -/
def Platform.linux : Platform where
  windows := false
  layout := .linux
  errc := linuxErrc
  systemEquivalent value condition := value = linuxErrc condition
  SOCK_STREAM := 1
  SOCK_DGRAM := 2
  IPPROTO_TCP := 6
  IPPROTO_UDP := 17
  SOL_SOCKET := 1
  SO_NOSIGPIPE := none
  MSG_NOSIGNAL := some 16384
  SHUT_RD := 0
  SHUT_WR := 1
  SHUT_RDWR := 2
  WSAEWOULDBLOCK := 10035
  WSAEINTR := 10004
  WSAECONNRESET := 10054
  WSAECONNREFUSED := 10061
  WSAETIMEDOUT := 10060
  WSAEADDRINUSE := 10048
  WSAECONNABORTED := 10053
  WSAENOTCONN := 10057
  WSAEMSGSIZE := 10040
  errc_ne_zero c := by cases c <;> decide
  messageSize_unique c := by cases c <;> decide
  wsa_nodup := by decide
  wsaeMsgSize_ne_zero := by decide

/-- The error values of the Windows C runtime. -/
def win64Errc : Errc → Int
  | .addressFamilyNotSupported => 102
  | .addressInUse => 100
  | .addressNotAvailable => 101
  | .alreadyConnected => 113
  | .argumentListTooLong => 7
  | .argumentOutOfDomain => 33
  | .badAddress => 14
  | .badFileDescriptor => 9
  | .badMessage => 104
  | .brokenPipe => 32
  | .connectionAborted => 106
  | .connectionAlreadyInProgress => 103
  | .connectionRefused => 107
  | .connectionReset => 108
  | .crossDeviceLink => 18
  | .destinationAddressRequired => 109
  | .deviceOrResourceBusy => 16
  | .directoryNotEmpty => 41
  | .executableFormatError => 8
  | .fileExists => 17
  | .fileTooLarge => 27
  | .filenameTooLong => 38
  | .functionNotSupported => 40
  | .hostUnreachable => 110
  | .identifierRemoved => 111
  | .illegalByteSequence => 42
  | .inappropriateIoControlOperation => 25
  | .interrupted => 4
  | .invalidArgument => 22
  | .invalidSeek => 29
  | .ioError => 5
  | .isADirectory => 21
  | .messageSize => 115
  | .networkDown => 116
  | .networkReset => 117
  | .networkUnreachable => 118
  | .noBufferSpace => 119
  | .noChildProcess => 10
  | .noLink => 121
  | .noLockAvailable => 39
  | .noMessage => 122
  | .noMessageAvailable => 120
  | .noProtocolOption => 123
  | .noSpaceOnDevice => 28
  | .noStreamResources => 124
  | .noSuchDevice => 19
  | .noSuchDeviceOrAddress => 6
  | .noSuchFileOrDirectory => 2
  | .noSuchProcess => 3
  | .notADirectory => 20
  | .notASocket => 128
  | .notAStream => 125
  | .notConnected => 126
  | .notEnoughMemory => 12
  | .notSupported => 129
  | .operationCanceled => 105
  | .operationInProgress => 112
  | .operationNotPermitted => 1
  | .operationNotSupported => 130
  | .operationWouldBlock => 140
  | .ownerDead => 133
  | .permissionDenied => 13
  | .protocolError => 134
  | .protocolNotSupported => 135
  | .readOnlyFileSystem => 30
  | .resourceDeadlockWouldOccur => 36
  | .resourceUnavailableTryAgain => 11
  | .resultOutOfRange => 34
  | .stateNotRecoverable => 127
  | .streamTimeout => 137
  | .textFileBusy => 139
  | .timedOut => 138
  | .tooManyFilesOpen => 24
  | .tooManyFilesOpenInSystem => 23
  | .tooManyLinks => 31
  | .tooManySymbolicLinkLevels => 114
  | .valueTooLarge => 132
  | .wrongProtocolType => 136

/-- Windows on x86-64. The system category is that of a compiler that maps no Winsock code. -/
def Platform.win64 : Platform where
  windows := true
  layout := .win64
  errc := win64Errc
  systemEquivalent _ _ := false
  SOCK_STREAM := 1
  SOCK_DGRAM := 2
  IPPROTO_TCP := 6
  IPPROTO_UDP := 17
  SOL_SOCKET := 65535
  SO_NOSIGPIPE := none
  MSG_NOSIGNAL := none
  SHUT_RD := 0
  SHUT_WR := 1
  SHUT_RDWR := 2
  WSAEWOULDBLOCK := 10035
  WSAEINTR := 10004
  WSAECONNRESET := 10054
  WSAECONNREFUSED := 10061
  WSAETIMEDOUT := 10060
  WSAEADDRINUSE := 10048
  WSAECONNABORTED := 10053
  WSAENOTCONN := 10057
  WSAEMSGSIZE := 10040
  errc_ne_zero c := by cases c <;> decide
  messageSize_unique c := by cases c <;> decide
  wsa_nodup := by decide
  wsaeMsgSize_ne_zero := by decide

/-! ### Errors

An error is a category and a value, and `Matches` is the only way in which the library looks
at one. -/

/-- `std::system_category()` or `std::generic_category()`: the first for the numbers of failed
calls, the second for conditions the library reports by name. -/
inductive Category
  | system
  | generic
  deriving DecidableEq, Repr

/-- `net::SocketError`: the `std::error_code` in it. -/
structure SocketError where
  category : Category
  value : Int
  deriving DecidableEq, Repr

namespace SocketError

/-- `SocketError(int)`. -/
def ofCode (code : Int) : SocketError := ⟨.system, code⟩

/-- `SocketError(std::make_error_code(condition))`. -/
def ofErrc (p : Platform) (condition : Errc) : SocketError := ⟨.generic, p.errc condition⟩

/-- `Success`. -/
def success : SocketError := ⟨.system, 0⟩

/-- `HasError`: the conversion of a `std::error_code` to `bool`, which does not look at the
category. -/
def hasError (e : SocketError) : Bool := e.value ≠ 0

/-- The cases of the Winsock `switch` in `Matches`: a value and the conditions it meets. -/
def winsockCases (p : Platform) : List (Int × List Errc) :=
  [(p.WSAEWOULDBLOCK, [.operationWouldBlock, .resourceUnavailableTryAgain]),
    (p.WSAEINTR, [.interrupted]),
    (p.WSAECONNRESET, [.connectionReset]),
    (p.WSAECONNREFUSED, [.connectionRefused]),
    (p.WSAETIMEDOUT, [.timedOut]),
    (p.WSAEADDRINUSE, [.addressInUse]),
    (p.WSAECONNABORTED, [.connectionAborted]),
    (p.WSAENOTCONN, [.notConnected]),
    (p.WSAEMSGSIZE, [.messageSize])]

/-- `m_ec == condition`. -/
def equivalent (p : Platform) (e : SocketError) (condition : Errc) : Bool :=
  match e.category with
  | .system => p.systemEquivalent e.value condition
  | .generic => e.value = p.errc condition

/-- `Matches`. A value that the `switch` has a case for is decided there; any other, and every
error of the generic category, is compared by the standard library. -/
def isMatch (p : Platform) (e : SocketError) (condition : Errc) : Bool :=
  if p.windows ∧ e.category = .system then
    match (winsockCases p).lookup e.value with
    | some conditions => conditions.any fun c => p.errc condition = p.errc c
    | none => e.equivalent p condition
  else e.equivalent p condition

/-- `IsInterrupted`. -/
def isInterrupted (p : Platform) (e : SocketError) : Bool := e.isMatch p .interrupted

@[simp] theorem hasError_ofErrc (p : Platform) (condition : Errc) :
    (ofErrc p condition).hasError = true := by
  simp [hasError, ofErrc, p.errc_ne_zero]

@[simp] theorem hasError_success : success.hasError = false := rfl

/-- An error made from a condition matches the conditions of the same value: it is of the
generic category, so the `switch` is not asked. -/
theorem isMatch_ofErrc (p : Platform) (condition c : Errc) :
    (ofErrc p condition).isMatch p c = true ↔ p.errc condition = p.errc c := by
  simp only [isMatch, ofErrc, equivalent, reduceCtorEq, and_false, if_false]
  exact decide_eq_true_iff

/-- A case of the `switch` is reached by its own value. -/
theorem lookup_winsockCases {p : Platform} {row : Int × List Errc} (hrow : row ∈ winsockCases p) :
    (winsockCases p).lookup row.1 = some row.2 := by
  have hnodup : ((winsockCases p).map Prod.fst).Nodup := p.wsa_nodup
  generalize winsockCases p = rows at hrow hnodup
  induction rows with
  | nil => cases hrow
  | cons first rows ih =>
      rw [List.map_cons, List.nodup_cons] at hnodup
      rw [List.lookup_cons]
      rcases List.mem_cons.mp hrow with rfl | hrow
      · simp
      · have hne : row.1 ≠ first.1 := by
          intro heq
          exact hnodup.1 (heq ▸ List.mem_map_of_mem hrow)
        simp only [beq_eq_false_iff_ne.mpr hne]
        exact ih hrow hnodup.2

/-- `WSAEMSGSIZE` is `message_size` and nothing else. -/
theorem isMatch_wsaeMsgSize {p : Platform} (hp : p.windows = true) (c : Errc) :
    (ofCode p.WSAEMSGSIZE).isMatch p c = true ↔ c = .messageSize := by
  have hvalue : p.errc c = p.errc .messageSize ↔ c = .messageSize :=
    ⟨p.messageSize_unique c, congrArg p.errc⟩
  have hrow : (p.WSAEMSGSIZE, [Errc.messageSize]) ∈ winsockCases p := by simp [winsockCases]
  simp [isMatch, ofCode, hp, lookup_winsockCases hrow, hvalue]

/-- `WSAEMSGSIZE` is no interruption, so the loop of `ReceiveFrom` never retries a truncation. -/
theorem isInterrupted_wsaeMsgSize {p : Platform} (hp : p.windows = true) :
    isInterrupted p (ofCode p.WSAEMSGSIZE) = false := by
  rw [Bool.eq_false_iff, isInterrupted, ne_eq, isMatch_wsaeMsgSize hp]
  decide

end SocketError

/-- `net::SocketResult`. `SocketResult<void>` keeps only the error; the assertion in
`Failure` is what makes it the same thing. -/
inductive SocketResult (α : Type)
  | success (value : α)
  | failure (error : SocketError)
  deriving DecidableEq, Repr

/-- `HasValue`. -/
def SocketResult.hasValue {α : Type} : SocketResult α → Bool
  | success _ => true
  | failure _ => false

end Net

end CoreSystems
