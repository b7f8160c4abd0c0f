import ShaderPipeline.Bytecode.Instruction

/-!
# Operand shapes

The operands an opcode takes depend on the stage and the version. `operandShape` lists them in
stream order, and has no entry for an opcode that the version lacks.
-/

namespace ShaderPipeline

/-- The kind of an operand in the stream. -/
inductive OperandKind where
  | dst
  | src
  | imm
  /-- The word in front of a declaration's destination. -/
  | decl
  deriving DecidableEq, Repr, Inhabited

def operandShape (op : Opcode) (v : Version) : Option (List OperandKind) :=
  let pixel := v.stage == .pixel
  let early := v.isEarlyPixel
  let early4 := early && v.minor == 4
  match op with
  | .nop | .ret | .orElse | .endIf | .endLoop | .endRep | .breakAlways => some []
  | .mov | .rcp | .rsq | .exp | .log | .lit | .frc | .abs | .nrm | .expPartial | .logPartial
  | .mova => some [.dst, .src]
  | .dsx | .dsy => if pixel then some [.dst, .src] else none
  | .add | .sub | .mul | .dp3 | .dp4 | .min | .max | .slt | .sge | .dst | .pow | .crs | .m4x4
  | .m4x3 | .m3x4 | .m3x3 | .m3x2 | .setPredicate => some [.dst, .src, .src]
  | .mad | .lrp | .cnd | .cmp | .dp2Add | .sgn => some [.dst, .src, .src, .src]
  | .sinCos => if 3 ≤ v.major then some [.dst, .src] else some [.dst, .src, .src, .src]
  | .ifBool | .rep | .call | .label | .breakPredicate => some [.src]
  | .ifCompare | .breakCompare | .loop | .callNonzero => some [.src, .src]
  | .defFloat | .defInt => some [.dst, .imm, .imm, .imm, .imm]
  | .defBool => some [.dst, .imm]
  | .dcl => some [.decl, .dst]
  | .tex =>
    if early4 then some [.dst, .src]
    else if early then some [.dst]
    else if pixel || 3 ≤ v.major then some [.dst, .src, .src]
    else none
  | .texCoord => if early4 then some [.dst, .src] else if early then some [.dst] else none
  | .texKill | .texDepth => if pixel then some [.dst] else none
  | .texBem | .texBemL | .texReg2Ar | .texReg2Gb | .texM3x2Pad | .texM3x2Tex | .texM3x3Pad
  | .texM3x3Tex | .texM3x3VSpec | .texReg2Rgb | .texDp3Tex | .texM3x2Depth | .texDp3 | .texM3x3 =>
    if early then some [.dst, .src] else none
  | .texM3x3Spec | .bem => if early then some [.dst, .src, .src] else none
  | .texLdd => if 2 ≤ v.major then some [.dst, .src, .src, .src, .src] else none
  | .texLdl => if 3 ≤ v.major then some [.dst, .src, .src] else none
  | .phase | .comment | .stop | .unknown _ => none

end ShaderPipeline
