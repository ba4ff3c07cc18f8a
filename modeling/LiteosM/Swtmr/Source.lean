import LiteosM.Lib.While
import LiteosM.Lib.Transition
import LiteosM.Lib.Word32
import Mathlib.Data.List.DropRight
import Mathlib.Order.WithBot

/-!
# Software timers

`los_swtmr.c` and the part of `los_sortlink.c` that it uses. The control blocks are numbered by
their place in `g_swtmrCBArray`, the free list and the sort link are lists of these numbers. The
reprogramming of the hardware timer is left out.
-/

namespace LiteosM.Swtmr

open LiteosM.Lib.While LiteosM.Lib.Word32

class SwtmrConfig where
  /-- `LOSCFG_BASE_CORE_SWTMR_LIMIT` -/
  swtmrLimit : Nat
  /-- `LOSCFG_BASE_CORE_SWTMR_ALIGN == 1` -/
  align : Bool
  /-- `OS_SYS_CLOCK` -/
  osSysClock : Nat
  /-- `LOSCFG_BASE_CORE_TICK_PER_SECOND` -/
  tickPerSecond : Nat

inductive SwtmrErrno
  | losOk
  | intervalNotSuited
  | modeInvalid
  | ptrNull
  | retPtrNull
  | rousesInvalid
  | alignInvalid
  | maxsize
  | idInvalid
  | tickPtrNull
  | notCreated
  | notStarted
deriving DecidableEq

inductive SwtmrStatus
  | unused
  | created
  | ticking
deriving DecidableEq

/-- `LOS_SWTMR_MODE_*`. -/
inductive SwtmrMode
  | once
  | period
  | noSelfdelete
  | opp
deriving DecidableEq

/-- `⊤` stands for `OS_SORT_LINK_INVALID_TIME`. -/
structure SwtmrCtrl where
  ucState : SwtmrStatus
  ucMode : SwtmrMode
  ucSensitive : Nat
  usTimerID : Nat
  uwCount : Nat
  uwInterval : Nat
  uwArg : Nat
  pfnHandler : Option Nat
  responseTime : WithTop Nat

structure SwtmrAlignData where
  times : Nat
  canMultiple : Bool
  canAlign : Bool
  isAligned : Bool
deriving DecidableEq

structure SwtmrHandlerItem where
  handler : Option Nat
  arg : Nat
deriving DecidableEq

/-- `written` is what has been sent to `g_swtmrHandlerQueue`, and for which timer; `reads` is how
often the clock has been read. -/
structure SwtmrState where
  gSwtmrCBArray : Nat → SwtmrCtrl
  gSwtmrFreeList : List Nat
  gSwtmrSortLink : List Nat
  gSwtmrAlignID : Nat → SwtmrAlignData
  written : List (Nat × SwtmrHandlerItem)
  reads : Nat

def osSwtmrAlignInsensitive : Nat := 1

def losCommonDivisor : Nat := 10

def osNullInt : Nat := 0xFFFFFFFF

def noAlign : SwtmrAlignData := ⟨0, false, false, false⟩

section

variable [SwtmrConfig]

def osCyclePerTick : Nat := SwtmrConfig.osSysClock / SwtmrConfig.tickPerSecond

def osSwtmrMaxTimerid : Nat := 0xFFFFFFFF / SwtmrConfig.swtmrLimit * SwtmrConfig.swtmrLimit

def SwtmrState.modify (s : SwtmrState) (t : Nat) (f : SwtmrCtrl → SwtmrCtrl) : SwtmrState :=
  { s with gSwtmrCBArray := Function.update s.gSwtmrCBArray t (f (s.gSwtmrCBArray t)) }

/-- The index of a timer in `g_swtmrAlignID`. -/
def SwtmrState.alignIndex (s : SwtmrState) (t : Nat) : Nat :=
  (s.gSwtmrCBArray t).usTimerID % SwtmrConfig.swtmrLimit

def SwtmrState.alignInfo (s : SwtmrState) (t : Nat) : SwtmrAlignData := s.gSwtmrAlignID (s.alignIndex t)

def SwtmrState.setAlign (s : SwtmrState) (t : Nat) (info : SwtmrAlignData) : SwtmrState :=
  { s with gSwtmrAlignID := Function.update s.gSwtmrAlignID (s.alignIndex t) info }

/-- A timer goes behind those that are not later. The search starts at the end of the list. -/
def osAddNode2SortLink (responseTime : Nat → WithTop Nat) (l : List Nat) (t : Nat) : List Nat :=
  match l with
  | [] => [t]
  | head :: _ =>
    if responseTime t ≤ responseTime head then t :: l
    else
      l.rdropWhile (fun u => decide (responseTime t < responseTime u)) ++
        t :: l.rtakeWhile fun u => decide (responseTime t < responseTime u)

def SwtmrState.responseTime (s : SwtmrState) (t : Nat) : WithTop Nat := (s.gSwtmrCBArray t).responseTime

def osDeleteNodeSortLink (s : SwtmrState) (t : Nat) : SwtmrState :=
  { s with gSwtmrSortLink := s.gSwtmrSortLink.erase t }.modify t fun cb => { cb with responseTime := ⊤ }

def osDeleteSortLink (s : SwtmrState) (t : Nat) : SwtmrState :=
  if s.responseTime t ≠ ⊤ then osDeleteNodeSortLink s t else s

def osAdd2SortLink (s : SwtmrState) (t startTime waitTicks : Nat) : SwtmrState :=
  let s := s.modify t fun cb => { cb with responseTime := ↑(startTime + waitTicks * osCyclePerTick) }
  { s with gSwtmrSortLink := osAddNode2SortLink s.responseTime s.gSwtmrSortLink t }

def osSortLinkGetTargetExpireTime (currTime : Nat) (responseTime : WithTop Nat) : Nat :=
  if responseTime ≤ (currTime : WithTop Nat) then 0
  else
    (responseTime.untopD (2 ^ 64 - 1) - currTime) * SwtmrConfig.tickPerSecond % 2 ^ 64 /
      SwtmrConfig.osSysClock % 2 ^ 32

def osSwtmrCalcAlignCount (s : SwtmrState) (currTime interval timerId : Nat) : Nat :=
  if interval = 0 then interval
  else
    let cur := s.gSwtmrCBArray (timerId % SwtmrConfig.swtmrLimit)
    let count := osSortLinkGetTargetExpireTime currTime cur.responseTime
    sub32 interval (sub32 cur.uwInterval count % interval)

/-- How the search for a timer to align with ends. -/
inductive AlignPos
  | same
  | stop
  | found (minInLarge maxInLitte : Option Nat)
deriving DecidableEq

/-- The loop of `OsSwtmrFindAlignPos` over the rest of the sort link. -/
def osSwtmrFindAlignPosLoop (s : SwtmrState) (swtmr : Nat) :
    List Nat → (minInLargeVal maxInLitteval : Nat) → (minInLarge maxInLitte : Option Nat) → AlignPos
  | [], _, _, minInLarge, maxInLitte => .found minInLarge maxInLitte
  | cur :: rest, minInLargeVal, maxInLitteval, minInLarge, maxInLitte =>
    let currSwtmrAlgInfo := s.alignInfo swtmr
    let currSwtmrTimes := currSwtmrAlgInfo.times
    let swtmrAlgInfo := s.alignInfo cur
    if !swtmrAlgInfo.isAligned || !swtmrAlgInfo.canAlign then
      osSwtmrFindAlignPosLoop s swtmr rest minInLargeVal maxInLitteval minInLarge maxInLitte
    else if (s.gSwtmrCBArray cur).uwInterval = (s.gSwtmrCBArray swtmr).uwInterval then .same
    else if !currSwtmrAlgInfo.canMultiple || swtmrAlgInfo.times = 0 then
      osSwtmrFindAlignPosLoop s swtmr rest minInLargeVal maxInLitteval minInLarge maxInLitte
    else
      let swtmrTimes := swtmrAlgInfo.times
      if currSwtmrTimes = 0 then .stop
      else if currSwtmrTimes ≤ swtmrTimes ∧ swtmrTimes % currSwtmrTimes = 0 then
        if swtmrTimes / currSwtmrTimes < minInLargeVal then
          osSwtmrFindAlignPosLoop s swtmr rest (swtmrTimes / currSwtmrTimes) maxInLitteval (some cur) maxInLitte
        else osSwtmrFindAlignPosLoop s swtmr rest minInLargeVal maxInLitteval minInLarge maxInLitte
      else if swtmrTimes < currSwtmrTimes ∧ currSwtmrTimes % swtmrTimes = 0 then
        if currSwtmrTimes / swtmrTimes < maxInLitteval then
          osSwtmrFindAlignPosLoop s swtmr rest minInLargeVal (currSwtmrTimes / swtmrTimes) minInLarge (some cur)
        else osSwtmrFindAlignPosLoop s swtmr rest minInLargeVal maxInLitteval minInLarge maxInLitte
      else osSwtmrFindAlignPosLoop s swtmr rest minInLargeVal maxInLitteval minInLarge maxInLitte

def osSwtmrFindAlignPos (s : SwtmrState) (currTime swtmr : Nat) : SwtmrState :=
  match osSwtmrFindAlignPosLoop s swtmr s.gSwtmrSortLink osNullInt osNullInt none none with
  | .same => s.modify swtmr fun cb => { cb with uwCount := 0 }
  | .stop => s
  | .found (some minInLarge) _ =>
    s.modify swtmr fun cb => { cb with
      uwCount := osSwtmrCalcAlignCount s currTime cb.uwInterval (s.gSwtmrCBArray minInLarge).usTimerID }
  | .found none (some maxInLitte) =>
    s.modify swtmr fun cb => { cb with
      uwCount := osSortLinkGetTargetExpireTime currTime (s.responseTime maxInLitte) }
  | .found none none => s

/-- `clock` gives the successive values of `OsGetCurrSchedTimeCycle`. -/
def osSwtmrStart (clock : Nat → Nat) (s : SwtmrState) (swtmr : Nat) : SwtmrState :=
  let currTime := clock s.reads
  let s := { s with reads := s.reads + 1 }
  let s := s.modify swtmr fun cb => { cb with uwCount := cb.uwInterval, ucState := .ticking }
  let info := s.alignInfo swtmr
  let s := if SwtmrConfig.align && info.canAlign && !info.isAligned then
      osSwtmrFindAlignPos (s.setAlign swtmr { info with isAligned := true }) currTime swtmr
    else s
  osAdd2SortLink s swtmr currTime (s.gSwtmrCBArray swtmr).uwCount

def osSwtmrDelete (s : SwtmrState) (swtmr : Nat) : SwtmrState :=
  let s := { s with gSwtmrFreeList := swtmr :: s.gSwtmrFreeList }
  let s := s.modify swtmr fun cb => { cb with ucState := .unused }
  if SwtmrConfig.align then s.setAlign swtmr noAlign else s

def osSwtmrStop (s : SwtmrState) (losTaskIsRunning : Bool) (swtmr : Nat) : SwtmrState :=
  let s := osDeleteSortLink s swtmr
  let s := s.modify swtmr fun cb => { cb with ucState := .created }
  if losTaskIsRunning && SwtmrConfig.align then
    s.setAlign swtmr { s.alignInfo swtmr with isAligned := false }
  else s

/-- The ID that a timer gets when it has deleted itself. -/
def nextTimerId (usTimerID : Nat) : Nat :=
  if usTimerID < osSwtmrMaxTimerid - SwtmrConfig.swtmrLimit then usTimerID + SwtmrConfig.swtmrLimit
  else usTimerID % SwtmrConfig.swtmrLimit

def osSwtmrTimeoutHandle (clock : Nat → Nat) (s : SwtmrState) (swtmr : Nat) : SwtmrState :=
  let cb := s.gSwtmrCBArray swtmr
  let s := { s with written := s.written ++ [(swtmr, ⟨cb.pfnHandler, cb.uwArg⟩)] }
  match cb.ucMode with
  | .once =>
    (osSwtmrDelete s swtmr).modify swtmr fun cb => { cb with usTimerID := nextTimerId cb.usTimerID }
  | .period => osSwtmrStart clock s swtmr
  | .noSelfdelete => s.modify swtmr fun cb => { cb with ucState := .created }
  | .opp => s

/-- The test of the loop of `OsSwtmrScan`: the first timer on the sort link is due. -/
def firstDue (currTime : Nat) (r : SwtmrState × Bool) : Bool :=
  match r.1.gSwtmrSortLink with
  | [] => false
  | swtmr :: _ => decide (r.1.responseTime swtmr ≤ currTime)

/-- The body of the loop of `OsSwtmrScan`. -/
def handleFirst (clock : Nat → Nat) (r : SwtmrState × Bool) : SwtmrState × Bool :=
  match r.1.gSwtmrSortLink with
  | [] => r
  | swtmr :: _ => (osSwtmrTimeoutHandle clock (osDeleteNodeSortLink r.1 swtmr) swtmr, true)

def osSwtmrScan (clock : Nat → Nat) (fuel : Nat) (s : SwtmrState) : Option (SwtmrState × Bool) :=
  if s.gSwtmrSortLink.isEmpty then some (s, false)
  else whileLoop (firstDue (clock s.reads)) (handleFirst clock) fuel ({ s with reads := s.reads + 1 }, false)

/-- `opp` stands for every mode that is not accepted. The result is the errno and `*swtmrId`. -/
def losSwtmrCreate (s : SwtmrState) (interval : Nat) (mode : SwtmrMode) (handler : Option Nat) (swtmrId : Bool)
    (arg rouses sensitive : Nat) : SwtmrState × SwtmrErrno × Option Nat :=
  if interval = 0 then (s, .intervalNotSuited, none)
  else if mode ≠ .once ∧ mode ≠ .period ∧ mode ≠ .noSelfdelete then (s, .modeInvalid, none)
  else if handler.isNone then (s, .ptrNull, none)
  else if !swtmrId then (s, .retPtrNull, none)
  else if SwtmrConfig.align && decide (rouses ≠ 0 ∧ rouses ≠ 1) then (s, .rousesInvalid, none)
  else if SwtmrConfig.align && decide (sensitive ≠ osSwtmrAlignInsensitive ∧ sensitive ≠ 0) then
    (s, .alignInvalid, none)
  else
    match s.gSwtmrFreeList with
    | [] => (s, .maxsize, none)
    | swtmr :: rest =>
      ({ s with gSwtmrFreeList := rest }.modify swtmr fun cb =>
        { cb with
          pfnHandler := handler
          ucMode := mode
          uwInterval := interval
          uwCount := 0
          uwArg := arg
          ucSensitive := if SwtmrConfig.align then sensitive else cb.ucSensitive
          ucState := .created
          responseTime := ⊤ }, .losOk, some (s.gSwtmrCBArray swtmr).usTimerID)

/-- What `LOS_SwtmrStart` writes to `g_swtmrAlignID` before it looks at the state of the timer. -/
def setCanAlign (s : SwtmrState) (swtmr : Nat) : SwtmrState :=
  let cb := s.gSwtmrCBArray swtmr
  if SwtmrConfig.align && decide (cb.ucSensitive = osSwtmrAlignInsensitive ∧ cb.ucMode = .period) then
    let info := { s.alignInfo swtmr with canAlign := true }
    s.setAlign swtmr (if cb.uwInterval % losCommonDivisor = 0 then
      { info with canMultiple := true, times := cb.uwInterval / losCommonDivisor % 2 ^ 24 } else info)
  else s

def losSwtmrStart (clock : Nat → Nat) (s : SwtmrState) (losTaskIsRunning : Bool) (swtmrId : Nat) :
    SwtmrState × SwtmrErrno :=
  if osSwtmrMaxTimerid ≤ swtmrId then (s, .idInvalid)
  else
    let swtmr := swtmrId % SwtmrConfig.swtmrLimit
    if (s.gSwtmrCBArray swtmr).usTimerID ≠ swtmrId then (s, .idInvalid)
    else
      let s := setCanAlign s swtmr
      match (s.gSwtmrCBArray swtmr).ucState with
      | .unused => (s, .notCreated)
      | .ticking => (osSwtmrStart clock (osSwtmrStop s losTaskIsRunning swtmr) swtmr, .losOk)
      | .created => (osSwtmrStart clock s swtmr, .losOk)

def losSwtmrStop (s : SwtmrState) (losTaskIsRunning : Bool) (swtmrId : Nat) : SwtmrState × SwtmrErrno :=
  if osSwtmrMaxTimerid ≤ swtmrId then (s, .idInvalid)
  else
    let swtmr := swtmrId % SwtmrConfig.swtmrLimit
    if (s.gSwtmrCBArray swtmr).usTimerID ≠ swtmrId then (s, .idInvalid)
    else
      match (s.gSwtmrCBArray swtmr).ucState with
      | .unused => (s, .notCreated)
      | .created => (s, .notStarted)
      | .ticking => (osSwtmrStop s losTaskIsRunning swtmr, .losOk)

def losSwtmrDelete (s : SwtmrState) (losTaskIsRunning : Bool) (swtmrId : Nat) : SwtmrState × SwtmrErrno :=
  if osSwtmrMaxTimerid ≤ swtmrId then (s, .idInvalid)
  else
    let swtmr := swtmrId % SwtmrConfig.swtmrLimit
    if (s.gSwtmrCBArray swtmr).usTimerID ≠ swtmrId then (s, .idInvalid)
    else
      match (s.gSwtmrCBArray swtmr).ucState with
      | .unused => (s, .notCreated)
      | .ticking => (osSwtmrDelete (osSwtmrStop s losTaskIsRunning swtmr) swtmr, .losOk)
      | .created => (osSwtmrDelete s swtmr, .losOk)

def osSwtmrTimeGet (clock : Nat → Nat) (s : SwtmrState) (swtmr : Nat) : SwtmrState × Nat :=
  ({ s with reads := s.reads + 1 }, osSortLinkGetTargetExpireTime (clock s.reads) (s.responseTime swtmr))

/-- The result is the errno and `*tick`. -/
def losSwtmrTimeGet (clock : Nat → Nat) (s : SwtmrState) (swtmrId : Nat) (tick : Bool) :
    SwtmrState × SwtmrErrno × Option Nat :=
  if osSwtmrMaxTimerid ≤ swtmrId then (s, .idInvalid, none)
  else if !tick then (s, .tickPtrNull, none)
  else
    let swtmr := swtmrId % SwtmrConfig.swtmrLimit
    if (s.gSwtmrCBArray swtmr).usTimerID ≠ swtmrId then (s, .idInvalid, none)
    else
      match (s.gSwtmrCBArray swtmr).ucState with
      | .unused => (s, .notCreated, none)
      | .created => (s, .notStarted, none)
      | .ticking =>
        let (s, time) := osSwtmrTimeGet clock s swtmr
        (s, .losOk, some time)

/-- `losTaskIsRunning` is what `LOS_TaskIsRunning` returns during the call. -/
inductive SwtmrCall
  | create (interval : Nat) (mode : SwtmrMode) (handler : Option Nat) (swtmrId : Bool) (arg rouses sensitive : Nat)
  | start (losTaskIsRunning : Bool) (swtmrId : Nat)
  | stop (losTaskIsRunning : Bool) (swtmrId : Nat)
  | delete (losTaskIsRunning : Bool) (swtmrId : Nat)
  | timeGet (swtmrId : Nat) (tick : Bool)
  | scan

/-- The interval is a `UINT32`. -/
inductive swtmrStep (clock : Nat → Nat) : SwtmrState → SwtmrCall → SwtmrState → Prop
  | create {s interval mode handler swtmrId arg rouses sensitive} (word : interval < 2 ^ 32) :
      swtmrStep clock s (.create interval mode handler swtmrId arg rouses sensitive)
        (losSwtmrCreate s interval mode handler swtmrId arg rouses sensitive).1
  | start {s running swtmrId} : swtmrStep clock s (.start running swtmrId) (losSwtmrStart clock s running swtmrId).1
  | stop {s running swtmrId} : swtmrStep clock s (.stop running swtmrId) (losSwtmrStop s running swtmrId).1
  | delete {s running swtmrId} : swtmrStep clock s (.delete running swtmrId) (losSwtmrDelete s running swtmrId).1
  | timeGet {s swtmrId tick} : swtmrStep clock s (.timeGet swtmrId tick) (losSwtmrTimeGet clock s swtmrId tick).1
  | scan {s s' fuel needSchedule} (run : osSwtmrScan clock fuel s = some (s', needSchedule)) :
      swtmrStep clock s .scan s'

/-- After `OsSwtmrInit` no timer is in use. -/
structure SwtmrBooted (s : SwtmrState) : Prop where
  ids : ∀ t < SwtmrConfig.swtmrLimit, (s.gSwtmrCBArray t).usTimerID = t
  unused : ∀ t < SwtmrConfig.swtmrLimit, (s.gSwtmrCBArray t).ucState = .unused
  free : s.gSwtmrFreeList = List.range SwtmrConfig.swtmrLimit
  idle : s.gSwtmrSortLink = []
  align : ∀ t < SwtmrConfig.swtmrLimit, s.gSwtmrAlignID t = noAlign

end

end LiteosM.Swtmr
