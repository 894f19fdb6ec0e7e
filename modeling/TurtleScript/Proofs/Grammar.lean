-- The grammar of scripts, apart from the machine that reads them. A script is
-- a row of statements; a statement is the name of a command and one argument
-- for each of its parameters, in order; a block argument is a script in
-- brackets. White space has no part in it.
import TurtleScript.Call

namespace TurtleScript

/-! ## Tokens -/

/-- The tokens that are not white space. -/
def solid (tokens : List Token) : List Token := tokens.filter fun t => !t.isBlank

/-- A token whose text counts. -/
def Token.IsText (t : Token) : Prop := t.kind = .word ∨ t.kind = .number

/-- The text stands for a number that the parameter can be given: any finite one, and for a count
a whole one that is not too large. -/
def Param.Admits (param : Param) (text : String) (x : Float) : Prop :=
  param.kind ≠ .block ∧ Decimal.number? text = some x ∧
    (param.kind = .integer → isWhole x = true ∧ ¬ Float.ofNat maxTimes < x)

/-! ## Derivations -/

mutual
/-- A script, with its statements. The calls in it have the ids from the first number up to the
second. -/
inductive DerivesScript : Nat → List Token → List Instruction → Nat → Prop
  | nil (n : Nat) : DerivesScript n [] [] n
  | cons {n m k : Nat} {ts us : List Token} {i : Instruction} {body : List Instruction} :
      DerivesStatement n ts i m → DerivesScript m us body k → DerivesScript n (ts ++ us) (i :: body) k

/-- A statement, with its call. Its id is the first free one. -/
inductive DerivesStatement : Nat → List Token → Instruction → Nat → Prop
  | call {n m : Nat} {t : Token} {ts : List Token} {command : Command} {args : List Arg} :
      t.IsText → Command.lookup? t.text = some command → DerivesArgs command.params (n + 1) ts args m →
      DerivesStatement n (t :: ts) ⟨n, command, args, true⟩ m

/-- Arguments for the parameters, one by one. -/
inductive DerivesArgs : List Param → Nat → List Token → List Arg → Nat → Prop
  | nil (n : Nat) : DerivesArgs [] n [] [] n
  | number {n m : Nat} {param : Param} {params : List Param} {t : Token} {ts : List Token} {x : Float}
      {args : List Arg} :
      t.IsText → param.Admits t.text x → DerivesArgs params n ts args m →
      DerivesArgs (param :: params) n (t :: ts) (.number param x :: args) m
  | block {n m k : Nat} {param : Param} {params : List Param} {left right : Token}
      {ts us : List Token} {body : List Instruction} {args : List Arg} :
      param.kind = .block → left.kind = .bracketOpen → DerivesScript n ts body m →
      right.kind = .bracketClose → DerivesArgs params m us args k →
      DerivesArgs (param :: params) n (left :: (ts ++ right :: us)) (.block param body :: args) k
end

/-! ## The calls of a tree -/

mutual
/-- An instruction, and then all that stand in its blocks, from left to right. -/
def Instruction.calls : Instruction → List Instruction
  | ⟨id, command, args, isComplete⟩ => ⟨id, command, args, isComplete⟩ :: argCalls args

def argCalls : List Arg → List Instruction
  | [] => []
  | .number _ _ :: args => argCalls args
  | .block _ body :: args => bodyCalls body ++ argCalls args

def bodyCalls : List Instruction → List Instruction
  | [] => []
  | i :: body => i.calls ++ bodyCalls body
end

/-- Instructions that are all complete and are numbered one after another, from `n` up to `m`. -/
def InOrder (n : Nat) (calls : List Instruction) (m : Nat) : Prop :=
  n + calls.length = m ∧ calls.map (·.id) = List.range' n calls.length ∧
    ∀ i ∈ calls, i.isComplete = true

theorem inOrder_nil (n : Nat) : InOrder n [] n := ⟨rfl, rfl, by simp⟩

theorem InOrder.append {n m k : Nat} {is js : List Instruction} (hi : InOrder n is m)
    (hj : InOrder m js k) : InOrder n (is ++ js) k := by
  obtain ⟨hm, hids, hcomplete⟩ := hi
  obtain ⟨hk, hjds, hjcomplete⟩ := hj
  refine ⟨?_, ?_, ?_⟩
  · rw [List.length_append]
    omega
  · rw [List.map_append, hids, hjds, List.length_append, ← hm, List.range'_append_1]
  · intro i hmem
    rcases List.mem_append.mp hmem with h | h
    · exact hcomplete i h
    · exact hjcomplete i h

theorem InOrder.cons {n m : Nat} {i : Instruction} {is : List Instruction} (hid : i.id = n)
    (hi : i.isComplete = true) (h : InOrder (n + 1) is m) : InOrder n (i :: is) m := by
  have hone : InOrder n [i] (n + 1) := ⟨rfl, by simp [hid], by simpa using hi⟩
  exact hone.append h

mutual
/-- In a derived tree the ids are in the order in which the calls begin. -/
theorem DerivesScript.inOrder {n m : Nat} {ts : List Token} {body : List Instruction} :
    DerivesScript n ts body m → InOrder n (bodyCalls body) m
  | .nil n => by
    rw [bodyCalls]
    exact inOrder_nil n
  | .cons hstatement hbody => by
    rw [bodyCalls]
    exact hstatement.inOrder.append hbody.inOrder

theorem DerivesStatement.inOrder {n m : Nat} {ts : List Token} {i : Instruction} :
    DerivesStatement n ts i m → InOrder n i.calls m
  | .call _ _ hargs => by
    rw [Instruction.calls]
    exact InOrder.cons rfl rfl hargs.inOrder

theorem DerivesArgs.inOrder {params : List Param} {n m : Nat} {ts : List Token} {args : List Arg} :
    DerivesArgs params n ts args m → InOrder n (argCalls args) m
  | .nil n => by
    rw [argCalls]
    exact inOrder_nil n
  | .number _ _ hargs => by
    rw [argCalls]
    exact hargs.inOrder
  | .block _ _ hbody _ hargs => by
    rw [argCalls]
    exact hbody.inOrder.append hargs.inOrder
end

end TurtleScript
