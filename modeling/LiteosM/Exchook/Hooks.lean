import Mathlib.Logic.Function.Basic

/-!
# The hooks of the exceptions

`los_exchook.c`. Each type of exception has a list of functions; its nodes come from one array,
and the nodes in no such list are in the list of free ones, which the first registration makes.
-/

namespace LiteosM.Exchook

class HookConfig where
  /-- `LOSCFG_BASE_EXC_HOOK_LIMIT` -/
  hookLimit : Nat
  hookLimit_pos : 0 < hookLimit

export HookConfig (hookLimit hookLimit_pos)

/-- `EXC_TYPE_END`: the types of exceptions are the numbers below. -/
def excTypeEnd : Nat := 4

inductive ExcErrno
  | losOk
  | sysPtrNull
  | sysHookIsFull
  deriving DecidableEq

/-- The address of a function. -/
abbrev ExcHookFn := Nat

structure Node where
  excHookFn : Option ExcHookFn
  next : Option Nat

structure ExcHooks where
  gExcNodes : Nat → Node
  gExcHeads : Nat → Option Nat
  /-- `OsExcHookRegister` has got `DoExcHook`. -/
  registered : Bool

namespace ExcHooks

def next (s : ExcHooks) (n : Nat) : Option Nat := (s.gExcNodes n).next

def fn (s : ExcHooks) (n : Nat) : Option ExcHookFn := (s.gExcNodes n).excHookFn

def setNext (s : ExcHooks) (n : Nat) (p : Option Nat) : ExcHooks :=
  { s with gExcNodes := Function.update s.gExcNodes n { s.gExcNodes n with next := p } }

def setFn (s : ExcHooks) (n : Nat) (f : Option ExcHookFn) : ExcHooks :=
  { s with gExcNodes := Function.update s.gExcNodes n { s.gExcNodes n with excHookFn := f } }

def setHead (s : ExcHooks) (t : Nat) (p : Option Nat) : ExcHooks :=
  { s with gExcHeads := Function.update s.gExcHeads t p }

def push (s : ExcHooks) (t n : Nat) : ExcHooks := (s.setNext n (s.gExcHeads t)).setHead t (some n)

end ExcHooks

/-- The calls, in their order. A call through a null pointer gives none. -/
def doExcHookInRegOrder (s : ExcHooks) (excType : Nat) :
    Nat → Option Nat → Option (List (ExcHookFn × Nat))
  | _, none => some []
  | 0, some _ => none
  | fuel + 1, some node => do
    let calls ← doExcHookInRegOrder s excType fuel (s.next node)
    let f ← s.fn node
    return calls ++ [(f, excType)]

def doExcHook [HookConfig] (s : ExcHooks) (excType : Nat) : Option (List (ExcHookFn × Nat)) :=
  if excTypeEnd ≤ excType then some []
  else doExcHookInRegOrder s excType hookLimit (s.gExcHeads excType)

def initFreeList [HookConfig] (s : ExcHooks) : ExcHooks :=
  { (List.range hookLimit).foldl (fun s i => s.push excTypeEnd i) s with registered := true }

def takeFreeNode (s : ExcHooks) : ExcHooks × Option Nat :=
  match s.gExcHeads excTypeEnd with
  | none => (s, none)
  | some node => (s.setHead excTypeEnd (s.next node), some node)

def getFreeNode [HookConfig] (s : ExcHooks) : ExcHooks × Option Nat :=
  if s.gExcHeads excTypeEnd = none then
    if s.fn 0 ≠ none then (s, none) else takeFreeNode (initFreeList s)
  else takeFreeNode s

def losRegExcHook [HookConfig] (s : ExcHooks) (excType : Nat) :
    Option ExcHookFn → ExcHooks × ExcErrno
  | none => (s, .sysPtrNull)
  | some excHookFn =>
    if excTypeEnd ≤ excType then (s, .sysPtrNull)
    else
      match getFreeNode s with
      | (s, none) => (s, .sysHookIsFull)
      | (s, some node) => ((s.setFn node (some excHookFn)).push excType node, .losOk)

def releaseNode (s : ExcHooks) (excType : Nat) (preNode : Option Nat) (node : Nat) : ExcHooks :=
  let s :=
    match preNode with
    | some pre => s.setNext pre (s.next node)
    | none => s.setHead excType (s.next node)
  (s.setFn node none).push excTypeEnd node

/-- The loop goes on from `node->next`, which a node that was just released has in the free list. -/
def unRegLoop (excType : Nat) (excHookFn : ExcHookFn) :
    Nat → ExcHooks → Option Nat → Option Nat → Option ExcHooks
  | _, s, _, none => some s
  | 0, _, _, some _ => none
  | fuel + 1, s, preNode, some node =>
    let s := if s.fn node = some excHookFn then releaseNode s excType preNode node else s
    unRegLoop excType excHookFn fuel s (some node) (s.next node)

def losUnRegExcHook [HookConfig] (s : ExcHooks) (excType : Nat) :
    Option ExcHookFn → Option (ExcHooks × ExcErrno)
  | none => some (s, .sysPtrNull)
  | some excHookFn =>
    if excTypeEnd ≤ excType then some (s, .sysPtrNull)
    else
      match unRegLoop excType excHookFn hookLimit s none (s.gExcHeads excType) with
      | none => none
      | some s => some (s, .losOk)

def excBooted : ExcHooks where
  gExcNodes := fun _ => ⟨none, none⟩
  gExcHeads := fun _ => none
  registered := false

inductive ExcOp
  | reg (excType : Nat) (excHookFn : Option ExcHookFn)
  | unReg (excType : Nat) (excHookFn : Option ExcHookFn)

def excCall [HookConfig] (s : ExcHooks) : ExcOp → Option (ExcHooks × ExcErrno)
  | .reg t f => some (losRegExcHook s t f)
  | .unReg t f => losUnRegExcHook s t f

def ExcStep [HookConfig] (s : ExcHooks) (event : ExcOp × ExcErrno) (s' : ExcHooks) : Prop :=
  excCall s event.1 = some (s', event.2)

end LiteosM.Exchook
