import ViewRendering.Template.Expression

/-!
Templates as trees: text, output, assignments, conditions, loops, sections and
definitions. The blocks, macros and imports of a template are those that stand at its
top level, blocks also directly inside blocks.
-/
namespace ViewRendering.Template

structure Parameter where
  name : String
  default : Option Expression

inductive Node where
  | text (s : List Char)
  | output (e : Expression)
  | assign (name : String) (e : Expression) (everywhere : Bool)
  | choice (branches : List (Expression × List Node)) (otherwise : Option (List Node))
  | loop (key : Option String) (value : String) (container : Expression) (body : List Node)
      (whenEmpty : Option (List Node))
  | leave
  | skip
  | filtered (filter : Call) (body : List Node)
  | block (name : String) (body : List Node)
  | parentBlock
  | inclusion (names : List String) (optional : Bool)
  | macroDefinition (name : String) (parameters : List Parameter) (body : List Node)
  | importMacros (source : String) (namesp : String)
  | parent (name : String)

structure Macro where
  parameters : List Parameter
  body : List Node

structure Page where
  name : String
  nodes : List Node
  blocks : List (String × List Node)
  macros : List (String × Macro)
  imports : List (String × String)
  parent : Option String

/-- The blocks that stand in a list of nodes or directly in one of those blocks, outermost
first. -/
def blocksIn : List Node → List (String × List Node)
  | [] => []
  | .block name body :: rest => (name, body) :: (blocksIn body ++ blocksIn rest)
  | _ :: rest => blocksIn rest

def macrosIn (nodes : List Node) : List (String × Macro) :=
  nodes.filterMap fun n => match n with
    | .macroDefinition name parameters body => some (name, ⟨parameters, body⟩)
    | _ => none

def importsIn (nodes : List Node) : List (String × String) :=
  nodes.filterMap fun n => match n with
    | .importMacros source namesp => some (source, namesp)
    | _ => none

def parentIn (nodes : List Node) : Option String :=
  nodes.findSome? fun n => match n with
    | .parent name => some name
    | _ => none

def firstRepeated (seen : List String) : List String → Option String
  | [] => none
  | k :: rest => if seen.contains k then some k else firstRepeated (k :: seen) rest

mutual

/-- The whole literals of a node that do not fit into 64 bits with a sign. -/
def Node.oversized : Node → List Int
  | .output e => e.oversized
  | .assign _ e _ => e.oversized
  | .choice branches otherwise => oversizedBranches branches ++ oversizedOption otherwise
  | .loop _ _ container body whenEmpty =>
    container.oversized ++ (oversizedNodes body ++ oversizedOption whenEmpty)
  | .filtered c body => c.oversized ++ oversizedNodes body
  | .block _ body => oversizedNodes body
  | .macroDefinition _ parameters body =>
    parameters.flatMap (fun p => p.default.elim [] Expression.oversized) ++ oversizedNodes body
  | .text _ => []
  | .leave => []
  | .skip => []
  | .parentBlock => []
  | .inclusion _ _ => []
  | .importMacros _ _ => []
  | .parent _ => []

def oversizedNodes : List Node → List Int
  | [] => []
  | n :: rest => n.oversized ++ oversizedNodes rest

def oversizedBranches : List (Expression × List Node) → List Int
  | [] => []
  | (e, body) :: rest => e.oversized ++ (oversizedNodes body ++ oversizedBranches rest)

def oversizedOption : Option (List Node) → List Int
  | none => []
  | some body => oversizedNodes body

end

def Page.ofNodes (name : String) (nodes : List Node) : Page :=
  ⟨name, nodes, blocksIn nodes, macrosIn nodes, importsIn nodes, parentIn nodes⟩

end ViewRendering.Template
