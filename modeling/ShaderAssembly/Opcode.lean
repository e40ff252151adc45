namespace ShaderAssembly

/-- The operations of the instruction set. A constructor is named by its mnemonic, or spelled out
where the mnemonic is a reserved word. -/
inductive Opcode where
  | nop
  | mov
  | add
  | sub
  | mad
  | mul
  | rcp
  | rsq
  | dp3
  | dp4
  | min
  | max
  | slt
  | sge
  | exp
  | log
  | lit
  | dst
  | lrp
  | frc
  | m4x4
  | m4x3
  | m3x4
  | m3x3
  | m3x2
  | call
  | callnz
  | loop
  | ret
  | endloop
  | label
  | dcl
  | pow
  | crs
  | sgn
  | abs
  | nrm
  | sincos
  | rep
  | endrep
  | ifBool
  | ifc
  | elseBlock
  | endif
  | breakLoop
  | breakc
  | mova
  | defBool
  | defInt
  | texcoord
  | texkill
  | texld
  | texbem
  | texbeml
  | texreg2ar
  | texreg2gb
  | texm3x2pad
  | texm3x2tex
  | texm3x3pad
  | texm3x3tex
  | texm3x3spec
  | texm3x3vspec
  | expp
  | logp
  | cnd
  | defFloat
  | texreg2rgb
  | texdp3tex
  | texm3x2depth
  | texdp3
  | texm3x3
  | texdepth
  | cmp
  | bem
  | dp2add
  | dsx
  | dsy
  | texldd
  | setp
  | texldl
  | breakp
  | phase
  | comment
  | endMark
  | unknown (code : UInt16)
deriving DecidableEq, Repr, Inhabited

namespace Opcode

/-- The opcode of an instruction token. -/
def ofToken (raw : UInt16) : Opcode :=
  match raw.toNat with
  | 0x00 => .nop
  | 0x01 => .mov
  | 0x02 => .add
  | 0x03 => .sub
  | 0x04 => .mad
  | 0x05 => .mul
  | 0x06 => .rcp
  | 0x07 => .rsq
  | 0x08 => .dp3
  | 0x09 => .dp4
  | 0x0A => .min
  | 0x0B => .max
  | 0x0C => .slt
  | 0x0D => .sge
  | 0x0E => .exp
  | 0x0F => .log
  | 0x10 => .lit
  | 0x11 => .dst
  | 0x12 => .lrp
  | 0x13 => .frc
  | 0x14 => .m4x4
  | 0x15 => .m4x3
  | 0x16 => .m3x4
  | 0x17 => .m3x3
  | 0x18 => .m3x2
  | 0x19 => .call
  | 0x1A => .callnz
  | 0x1B => .loop
  | 0x1C => .ret
  | 0x1D => .endloop
  | 0x1E => .label
  | 0x1F => .dcl
  | 0x20 => .pow
  | 0x21 => .crs
  | 0x22 => .sgn
  | 0x23 => .abs
  | 0x24 => .nrm
  | 0x25 => .sincos
  | 0x26 => .rep
  | 0x27 => .endrep
  | 0x28 => .ifBool
  | 0x29 => .ifc
  | 0x2A => .elseBlock
  | 0x2B => .endif
  | 0x2C => .breakLoop
  | 0x2D => .breakc
  | 0x2E => .mova
  | 0x2F => .defBool
  | 0x30 => .defInt
  | 0x40 => .texcoord
  | 0x41 => .texkill
  | 0x42 => .texld
  | 0x43 => .texbem
  | 0x44 => .texbeml
  | 0x45 => .texreg2ar
  | 0x46 => .texreg2gb
  | 0x47 => .texm3x2pad
  | 0x48 => .texm3x2tex
  | 0x49 => .texm3x3pad
  | 0x4A => .texm3x3tex
  | 0x4C => .texm3x3spec
  | 0x4D => .texm3x3vspec
  | 0x4E => .expp
  | 0x4F => .logp
  | 0x50 => .cnd
  | 0x51 => .defFloat
  | 0x52 => .texreg2rgb
  | 0x53 => .texdp3tex
  | 0x54 => .texm3x2depth
  | 0x55 => .texdp3
  | 0x56 => .texm3x3
  | 0x57 => .texdepth
  | 0x58 => .cmp
  | 0x59 => .bem
  | 0x5A => .dp2add
  | 0x5B => .dsx
  | 0x5C => .dsy
  | 0x5D => .texldd
  | 0x5E => .setp
  | 0x5F => .texldl
  | 0x60 => .breakp
  | 0xfffd => .phase
  | 0xfffe => .comment
  | 0xffff => .endMark
  | _ => .unknown raw

/-- The name of the operation in assembly text. -/
def mnemonic : Opcode → String
  | .nop => "nop"
  | .mov => "mov"
  | .add => "add"
  | .sub => "sub"
  | .mad => "mad"
  | .mul => "mul"
  | .rcp => "rcp"
  | .rsq => "rsq"
  | .dp3 => "dp3"
  | .dp4 => "dp4"
  | .min => "min"
  | .max => "max"
  | .slt => "slt"
  | .sge => "sge"
  | .exp => "exp"
  | .log => "log"
  | .lit => "lit"
  | .dst => "dst"
  | .lrp => "lrp"
  | .frc => "frc"
  | .m4x4 => "m4x4"
  | .m4x3 => "m4x3"
  | .m3x4 => "m3x4"
  | .m3x3 => "m3x3"
  | .m3x2 => "m3x2"
  | .call => "call"
  | .callnz => "callnz"
  | .loop => "loop"
  | .ret => "ret"
  | .endloop => "endloop"
  | .label => "label"
  | .dcl => "dcl"
  | .pow => "pow"
  | .crs => "crs"
  | .sgn => "sgn"
  | .abs => "abs"
  | .nrm => "nrm"
  | .sincos => "sincos"
  | .rep => "rep"
  | .endrep => "endrep"
  | .ifBool => "if"
  | .ifc => "ifc"
  | .elseBlock => "else"
  | .endif => "endif"
  | .breakLoop => "break"
  | .breakc => "breakc"
  | .mova => "mova"
  | .defBool => "defb"
  | .defInt => "defi"
  | .texcoord => "texcoord"
  | .texkill => "texkill"
  | .texld => "texld"
  | .texbem => "texbem"
  | .texbeml => "texbeml"
  | .texreg2ar => "texreg2ar"
  | .texreg2gb => "texreg2gb"
  | .texm3x2pad => "texm3x2pad"
  | .texm3x2tex => "texm3x2tex"
  | .texm3x3pad => "texm3x3pad"
  | .texm3x3tex => "texm3x3tex"
  | .texm3x3spec => "texm3x3spec"
  | .texm3x3vspec => "texm3x3vspec"
  | .expp => "expp"
  | .logp => "logp"
  | .cnd => "cnd"
  | .defFloat => "def"
  | .texreg2rgb => "texreg2rgb"
  | .texdp3tex => "texdp3tex"
  | .texm3x2depth => "texm3x2depth"
  | .texdp3 => "texdp3"
  | .texm3x3 => "texm3x3"
  | .texdepth => "texdepth"
  | .cmp => "cmp"
  | .bem => "bem"
  | .dp2add => "dp2add"
  | .dsx => "dsx"
  | .dsy => "dsy"
  | .texldd => "texldd"
  | .setp => "setp"
  | .texldl => "texldl"
  | .breakp => "breakp"
  | .phase => "phase"
  | .comment => "comment"
  | .endMark => "end"
  | .unknown _ => "unknown"

/-- Whether the operation defines a constant register. -/
def isDefinition : Opcode → Bool
  | .defFloat | .defInt | .defBool => true
  | _ => false

end Opcode

end ShaderAssembly
