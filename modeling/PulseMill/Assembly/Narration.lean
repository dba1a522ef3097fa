import PulseMill.Assembly.Assembler
import PulseMill.Log
import PulseMill.Text.Quoted
set_option autoImplicit false

namespace PulseMill

def BlockArray.narrateGrowth {α : Type} (before after : BlockArray α) : List Line :=
  (List.range (after.growths - before.growths)).map fun i =>
    ⟨.trace, s!"block array grew to {before.capacity + (i + 1) * before.increment} entries"⟩

namespace Assembler

def narrateToken (st : Assembler) (token : String) : Line :=
  ⟨.trace, s!"line {st.line} symbol {Text.quoted token} in {st.progress.phase.name}"⟩

def narrateBlocks (before after : Assembler) : List Line :=
  before.blocks.narrateGrowth after.blocks ++
    if before.blocks.length < after.blocks.length then
      [⟨.debug, s!"line {after.line}: block {after.blocks.length} compiled"⟩]
    else []

def narrateTokens (reserve : Reserve) (st : Assembler) : List String → List Line
  | [] =>
    match st.endLine reserve with
    | .ok next => st.narrateBlocks next
    | .error _ => []
  | token :: more =>
    st.narrateToken token ::
      match st.readToken reserve token with
      | .ok next => st.narrateBlocks next ++ next.narrateTokens reserve more
      | .error _ => []

def narrateLine (reserve : Reserve) (st : Assembler) (line : String) : List Line :=
  if st.failed.isSome || st.line ≥ maxLine then []
  else
    match tokensOf line with
    | [] => []
    | tokens => narrateTokens reserve { st with line := st.line + 1 } tokens

def narrateLines (reserve : Reserve) (st : Assembler) : List String → List Line
  | [] => []
  | line :: more =>
    st.narrateLine reserve line ++ (st.readLine reserve line).narrateLines reserve more

def narrateFinish (st : Assembler) : List Line :=
  match st.finish with
  | .ok p => [⟨.debug, s!"assembled {p.blocks.length} blocks from {st.line} lines"⟩]
  | .error _ => []

end Assembler

def narrateAssembly (reserve : Reserve) (source : String) : List Line :=
  match BlockArray.withCapacity reserve 16 16 with
  | .error _ => []
  | .ok blocks =>
    let st := Assembler.ofBlocks blocks
    st.narrateLines reserve (sourceLines source) ++
      (st.readLines reserve (sourceLines source)).narrateFinish

end PulseMill
