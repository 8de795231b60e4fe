import NesEmulator.Instructions

/-!
The opcode table, and fetching an instruction.

The function pointers of the table are names here, and `InstructionFn.call` follows them.
-/

namespace NesEmulator

inductive AddressingMode
  | accumulator | absolute | absoluteX | absoluteY | immediate | implied | indirect | indirectX
  | indirectY | relative | zeroPage | zeroPageX | zeroPageY
  deriving DecidableEq

inductive Instruction
  | adc | and | asl | bcc | bcs | beq | bit | bmi | bne | bpl | brk | bvc | bvs | clc | cld | cli
  | clv | cmp | cpx | cpy | dec | dex | dey | eor | inc | inx | iny | jmp | jsr | lda | ldx | ldy
  | lsr | nop | ora | pha | php | pla | plp | rol | ror | rti | rts | sbc | sec | sed | sei | sta
  | stx | sty | tax | tay | tsx | txa | txs | tya
  -- Unofficial opcodes
  | alr | anc | ane | arr | dcp | isb | jam | las | lax | lxa | rla | slo | sre | rra | sax | sbx
  | sha | shx | shy | tas
  deriving DecidableEq

/-- The functions that the table points to. -/
inductive InstructionFn
  | adcFn | andFn | aslFn | bccFn | bcsFn | beqFn | bitFn | bmiFn | bneFn | bplFn | brkFn | bvcFn
  | bvsFn | clcFn | cldFn | cliFn | clvFn | cmpFn | cpxFn | cpyFn | decFn | dexFn | deyFn | eorFn
  | incFn | inxFn | inyFn | jmpFn | jsrFn | ldaFn | ldxFn | ldyFn | lsrFn | nopFn | oraFn | phaFn
  | phpFn | plaFn | plpFn | rolFn | rorFn | rtiFn | rtsFn | sbcFn | secFn | sedFn | seiFn | staFn
  | stxFn | styFn | taxFn | tayFn | tsxFn | txaFn | txsFn | tyaFn | aslAccFn | lsrAccFn
  | rolAccFn | rorAccFn | jamFn | sloFn | ancFn | rlaFn | sreFn | alrFn | rraFn | arrFn | saxFn
  | aneFn | shaFn | tasFn | shyFn | shxFn | laxFn | lxaFn | lasFn | dcpFn | sbxFn | isbFn
  deriving DecidableEq

def InstructionFn.call : InstructionFn → Bus → U16 → Bus
  | .adcFn => NesEmulator.adcFn
  | .andFn => NesEmulator.andFn
  | .aslFn => NesEmulator.aslFn
  | .bccFn => NesEmulator.bccFn
  | .bcsFn => NesEmulator.bcsFn
  | .beqFn => NesEmulator.beqFn
  | .bitFn => NesEmulator.bitFn
  | .bmiFn => NesEmulator.bmiFn
  | .bneFn => NesEmulator.bneFn
  | .bplFn => NesEmulator.bplFn
  | .brkFn => NesEmulator.brkFn
  | .bvcFn => NesEmulator.bvcFn
  | .bvsFn => NesEmulator.bvsFn
  | .clcFn => NesEmulator.clcFn
  | .cldFn => NesEmulator.cldFn
  | .cliFn => NesEmulator.cliFn
  | .clvFn => NesEmulator.clvFn
  | .cmpFn => NesEmulator.cmpFn
  | .cpxFn => NesEmulator.cpxFn
  | .cpyFn => NesEmulator.cpyFn
  | .decFn => NesEmulator.decFn
  | .dexFn => NesEmulator.dexFn
  | .deyFn => NesEmulator.deyFn
  | .eorFn => NesEmulator.eorFn
  | .incFn => NesEmulator.incFn
  | .inxFn => NesEmulator.inxFn
  | .inyFn => NesEmulator.inyFn
  | .jmpFn => NesEmulator.jmpFn
  | .jsrFn => NesEmulator.jsrFn
  | .ldaFn => NesEmulator.ldaFn
  | .ldxFn => NesEmulator.ldxFn
  | .ldyFn => NesEmulator.ldyFn
  | .lsrFn => NesEmulator.lsrFn
  | .nopFn => NesEmulator.nopFn
  | .oraFn => NesEmulator.oraFn
  | .phaFn => NesEmulator.phaFn
  | .phpFn => NesEmulator.phpFn
  | .plaFn => NesEmulator.plaFn
  | .plpFn => NesEmulator.plpFn
  | .rolFn => NesEmulator.rolFn
  | .rorFn => NesEmulator.rorFn
  | .rtiFn => NesEmulator.rtiFn
  | .rtsFn => NesEmulator.rtsFn
  | .sbcFn => NesEmulator.sbcFn
  | .secFn => NesEmulator.secFn
  | .sedFn => NesEmulator.sedFn
  | .seiFn => NesEmulator.seiFn
  | .staFn => NesEmulator.staFn
  | .stxFn => NesEmulator.stxFn
  | .styFn => NesEmulator.styFn
  | .taxFn => NesEmulator.taxFn
  | .tayFn => NesEmulator.tayFn
  | .tsxFn => NesEmulator.tsxFn
  | .txaFn => NesEmulator.txaFn
  | .txsFn => NesEmulator.txsFn
  | .tyaFn => NesEmulator.tyaFn
  | .aslAccFn => NesEmulator.aslAccFn
  | .lsrAccFn => NesEmulator.lsrAccFn
  | .rolAccFn => NesEmulator.rolAccFn
  | .rorAccFn => NesEmulator.rorAccFn
  | .jamFn => NesEmulator.jamFn
  | .sloFn => NesEmulator.sloFn
  | .ancFn => NesEmulator.ancFn
  | .rlaFn => NesEmulator.rlaFn
  | .sreFn => NesEmulator.sreFn
  | .alrFn => NesEmulator.alrFn
  | .rraFn => NesEmulator.rraFn
  | .arrFn => NesEmulator.arrFn
  | .saxFn => NesEmulator.saxFn
  | .aneFn => NesEmulator.aneFn
  | .shaFn => NesEmulator.shaFn
  | .tasFn => NesEmulator.tasFn
  | .shyFn => NesEmulator.shyFn
  | .shxFn => NesEmulator.shxFn
  | .laxFn => NesEmulator.laxFn
  | .lxaFn => NesEmulator.lxaFn
  | .lasFn => NesEmulator.lasFn
  | .dcpFn => NesEmulator.dcpFn
  | .sbxFn => NesEmulator.sbxFn
  | .isbFn => NesEmulator.isbFn

/-- A row of the table, with the operand bytes that follow the opcode. In the source the two
bytes share their place with `word`, low byte first. -/
structure OpCode where
  instructionFn : InstructionFn
  instruction : Instruction
  bytes : ℕ
  cycles : ℕ
  addressingMode : AddressingMode
  byte : U8 := 0
  ignored : U8 := 0
  deriving DecidableEq

def OpCode.word (opcode : OpCode) : U16 := opcode.ignored ++ opcode.byte

/-- A row of the table; the operand bytes are filled in by the fetch. -/
def row (fn : InstructionFn) (instruction : Instruction) (bytes cycles : ℕ)
    (mode : AddressingMode) : OpCode :=
  ⟨fn, instruction, bytes, cycles, mode, 0, 0⟩

set_option maxRecDepth 4000 in
def opcodes : Vector OpCode 0x100 := #v[
  /- 0x00 -/ row .brkFn .brk 1 7 .implied,
  /- 0x01 -/ row .oraFn .ora 2 6 .indirectX,
  /- 0x02 -/ row .jamFn .jam 1 1 .implied,
  /- 0x03 -/ row .sloFn .slo 2 8 .indirectX,
  /- 0x04 -/ row .nopFn .nop 2 3 .zeroPage,
  /- 0x05 -/ row .oraFn .ora 2 3 .zeroPage,
  /- 0x06 -/ row .aslFn .asl 2 5 .zeroPage,
  /- 0x07 -/ row .sloFn .slo 2 5 .zeroPage,
  /- 0x08 -/ row .phpFn .php 1 3 .implied,
  /- 0x09 -/ row .oraFn .ora 2 2 .immediate,
  /- 0x0A -/ row .aslAccFn .asl 1 2 .accumulator,
  /- 0x0B -/ row .ancFn .anc 2 2 .immediate,
  /- 0x0C -/ row .nopFn .nop 3 4 .absolute,
  /- 0x0D -/ row .oraFn .ora 3 4 .absolute,
  /- 0x0E -/ row .aslFn .asl 3 6 .absolute,
  /- 0x0F -/ row .sloFn .slo 3 6 .absolute,
  /- 0x10 -/ row .bplFn .bpl 2 2 .relative,
  /- 0x11 -/ row .oraFn .ora 2 5 .indirectY,
  /- 0x12 -/ row .jamFn .jam 1 1 .implied,
  /- 0x13 -/ row .sloFn .slo 2 8 .indirectY,
  /- 0x14 -/ row .nopFn .nop 2 4 .zeroPageX,
  /- 0x15 -/ row .oraFn .ora 2 4 .zeroPageX,
  /- 0x16 -/ row .aslFn .asl 2 6 .zeroPageX,
  /- 0x17 -/ row .sloFn .slo 2 6 .zeroPageX,
  /- 0x18 -/ row .clcFn .clc 1 2 .implied,
  /- 0x19 -/ row .oraFn .ora 3 4 .absoluteY,
  /- 0x1A -/ row .nopFn .nop 1 2 .implied,
  /- 0x1B -/ row .sloFn .slo 3 7 .absoluteY,
  /- 0x1C -/ row .nopFn .nop 3 4 .absoluteX,
  /- 0x1D -/ row .oraFn .ora 3 4 .absoluteX,
  /- 0x1E -/ row .aslFn .asl 3 7 .absoluteX,
  /- 0x1F -/ row .sloFn .slo 3 7 .absoluteX,
  /- 0x20 -/ row .jsrFn .jsr 3 6 .absolute,
  /- 0x21 -/ row .andFn .and 2 6 .indirectX,
  /- 0x22 -/ row .jamFn .jam 1 1 .implied,
  /- 0x23 -/ row .rlaFn .rla 2 8 .indirectX,
  /- 0x24 -/ row .bitFn .bit 2 3 .zeroPage,
  /- 0x25 -/ row .andFn .and 2 3 .zeroPage,
  /- 0x26 -/ row .rolFn .rol 2 5 .zeroPage,
  /- 0x27 -/ row .rlaFn .rla 2 5 .zeroPage,
  /- 0x28 -/ row .plpFn .plp 1 4 .implied,
  /- 0x29 -/ row .andFn .and 2 2 .immediate,
  /- 0x2A -/ row .rolAccFn .rol 1 2 .accumulator,
  /- 0x2B -/ row .ancFn .anc 2 2 .immediate,
  /- 0x2C -/ row .bitFn .bit 3 4 .absolute,
  /- 0x2D -/ row .andFn .and 3 4 .absolute,
  /- 0x2E -/ row .rolFn .rol 3 6 .absolute,
  /- 0x2F -/ row .rlaFn .rla 3 6 .absolute,
  /- 0x30 -/ row .bmiFn .bmi 2 2 .relative,
  /- 0x31 -/ row .andFn .and 2 5 .indirectY,
  /- 0x32 -/ row .jamFn .jam 1 1 .implied,
  /- 0x33 -/ row .rlaFn .rla 2 8 .indirectY,
  /- 0x34 -/ row .nopFn .nop 2 4 .zeroPageX,
  /- 0x35 -/ row .andFn .and 2 4 .zeroPageX,
  /- 0x36 -/ row .rolFn .rol 2 6 .zeroPageX,
  /- 0x37 -/ row .rlaFn .rla 2 6 .zeroPageX,
  /- 0x38 -/ row .secFn .sec 1 2 .implied,
  /- 0x39 -/ row .andFn .and 3 4 .absoluteY,
  /- 0x3A -/ row .nopFn .nop 1 2 .implied,
  /- 0x3B -/ row .rlaFn .rla 3 7 .absoluteY,
  /- 0x3C -/ row .nopFn .nop 3 4 .absoluteX,
  /- 0x3D -/ row .andFn .and 3 4 .absoluteX,
  /- 0x3E -/ row .rolFn .rol 3 7 .absoluteX,
  /- 0x3F -/ row .rlaFn .rla 3 7 .absoluteX,
  /- 0x40 -/ row .rtiFn .rti 1 6 .implied,
  /- 0x41 -/ row .eorFn .eor 2 6 .indirectX,
  /- 0x42 -/ row .jamFn .jam 1 1 .implied,
  /- 0x43 -/ row .sreFn .sre 2 8 .indirectX,
  /- 0x44 -/ row .nopFn .nop 2 3 .zeroPage,
  /- 0x45 -/ row .eorFn .eor 2 3 .zeroPage,
  /- 0x46 -/ row .lsrFn .lsr 2 5 .zeroPage,
  /- 0x47 -/ row .sreFn .sre 2 5 .zeroPage,
  /- 0x48 -/ row .phaFn .pha 1 3 .implied,
  /- 0x49 -/ row .eorFn .eor 2 2 .immediate,
  /- 0x4A -/ row .lsrAccFn .lsr 1 2 .accumulator,
  /- 0x4B -/ row .alrFn .alr 2 2 .immediate,
  /- 0x4C -/ row .jmpFn .jmp 3 3 .absolute,
  /- 0x4D -/ row .eorFn .eor 3 4 .absolute,
  /- 0x4E -/ row .lsrFn .lsr 3 6 .absolute,
  /- 0x4F -/ row .sreFn .sre 3 6 .absolute,
  /- 0x50 -/ row .bvcFn .bvc 2 2 .relative,
  /- 0x51 -/ row .eorFn .eor 2 5 .indirectY,
  /- 0x52 -/ row .jamFn .jam 1 1 .implied,
  /- 0x53 -/ row .sreFn .sre 2 8 .indirectY,
  /- 0x54 -/ row .nopFn .nop 2 4 .zeroPageX,
  /- 0x55 -/ row .eorFn .eor 2 4 .zeroPageX,
  /- 0x56 -/ row .lsrFn .lsr 2 6 .zeroPageX,
  /- 0x57 -/ row .sreFn .sre 2 6 .zeroPageX,
  /- 0x58 -/ row .cliFn .cli 1 2 .implied,
  /- 0x59 -/ row .eorFn .eor 3 4 .absoluteY,
  /- 0x5A -/ row .nopFn .nop 1 2 .implied,
  /- 0x5B -/ row .sreFn .sre 3 7 .absoluteY,
  /- 0x5C -/ row .nopFn .nop 3 4 .absoluteX,
  /- 0x5D -/ row .eorFn .eor 3 4 .absoluteX,
  /- 0x5E -/ row .lsrFn .lsr 3 7 .absoluteX,
  /- 0x5F -/ row .sreFn .sre 3 7 .absoluteX,
  /- 0x60 -/ row .rtsFn .rts 1 6 .implied,
  /- 0x61 -/ row .adcFn .adc 2 6 .indirectX,
  /- 0x62 -/ row .jamFn .jam 1 1 .implied,
  /- 0x63 -/ row .rraFn .rra 2 8 .indirectX,
  /- 0x64 -/ row .nopFn .nop 2 3 .zeroPage,
  /- 0x65 -/ row .adcFn .adc 2 3 .zeroPage,
  /- 0x66 -/ row .rorFn .ror 2 5 .zeroPage,
  /- 0x67 -/ row .rraFn .rra 2 5 .zeroPage,
  /- 0x68 -/ row .plaFn .pla 1 4 .implied,
  /- 0x69 -/ row .adcFn .adc 2 2 .immediate,
  /- 0x6A -/ row .rorAccFn .ror 1 2 .accumulator,
  /- 0x6B -/ row .arrFn .arr 2 2 .immediate,
  /- 0x6C -/ row .jmpFn .jmp 3 5 .indirect,
  /- 0x6D -/ row .adcFn .adc 3 4 .absolute,
  /- 0x6E -/ row .rorFn .ror 3 6 .absolute,
  /- 0x6F -/ row .rraFn .rra 3 6 .absolute,
  /- 0x70 -/ row .bvsFn .bvs 2 2 .relative,
  /- 0x71 -/ row .adcFn .adc 2 5 .indirectY,
  /- 0x72 -/ row .jamFn .jam 1 1 .implied,
  /- 0x73 -/ row .rraFn .rra 2 8 .indirectY,
  /- 0x74 -/ row .nopFn .nop 2 4 .zeroPageX,
  /- 0x75 -/ row .adcFn .adc 2 4 .zeroPageX,
  /- 0x76 -/ row .rorFn .ror 2 6 .zeroPageX,
  /- 0x77 -/ row .rraFn .rra 2 6 .zeroPageX,
  /- 0x78 -/ row .seiFn .sei 1 2 .implied,
  /- 0x79 -/ row .adcFn .adc 3 4 .absoluteY,
  /- 0x7A -/ row .nopFn .nop 1 2 .implied,
  /- 0x7B -/ row .rraFn .rra 3 7 .absoluteY,
  /- 0x7C -/ row .nopFn .nop 3 4 .absoluteX,
  /- 0x7D -/ row .adcFn .adc 3 4 .absoluteX,
  /- 0x7E -/ row .rorFn .ror 3 7 .absoluteX,
  /- 0x7F -/ row .rraFn .rra 3 7 .absoluteX,
  /- 0x80 -/ row .nopFn .nop 2 2 .immediate,
  /- 0x81 -/ row .staFn .sta 2 6 .indirectX,
  /- 0x82 -/ row .nopFn .nop 2 2 .immediate,
  /- 0x83 -/ row .saxFn .sax 2 6 .indirectX,
  /- 0x84 -/ row .styFn .sty 2 3 .zeroPage,
  /- 0x85 -/ row .staFn .sta 2 3 .zeroPage,
  /- 0x86 -/ row .stxFn .stx 2 3 .zeroPage,
  /- 0x87 -/ row .saxFn .sax 2 3 .zeroPage,
  /- 0x88 -/ row .deyFn .dey 1 2 .implied,
  /- 0x89 -/ row .nopFn .nop 2 2 .immediate,
  /- 0x8A -/ row .txaFn .txa 1 2 .implied,
  /- 0x8B -/ row .aneFn .ane 2 2 .immediate,
  /- 0x8C -/ row .styFn .sty 3 4 .absolute,
  /- 0x8D -/ row .staFn .sta 3 4 .absolute,
  /- 0x8E -/ row .stxFn .stx 3 4 .absolute,
  /- 0x8F -/ row .saxFn .sax 3 4 .absolute,
  /- 0x90 -/ row .bccFn .bcc 2 2 .relative,
  /- 0x91 -/ row .staFn .sta 2 6 .indirectY,
  /- 0x92 -/ row .jamFn .jam 1 1 .implied,
  /- 0x93 -/ row .shaFn .sha 2 6 .indirectY,
  /- 0x94 -/ row .styFn .sty 2 4 .zeroPageX,
  /- 0x95 -/ row .staFn .sta 2 4 .zeroPageX,
  /- 0x96 -/ row .stxFn .stx 2 4 .zeroPageY,
  /- 0x97 -/ row .saxFn .sax 2 4 .zeroPageY,
  /- 0x98 -/ row .tyaFn .tya 1 2 .implied,
  /- 0x99 -/ row .staFn .sta 3 5 .absoluteY,
  /- 0x9A -/ row .txsFn .txs 1 2 .implied,
  /- 0x9B -/ row .tasFn .tas 3 5 .absoluteY,
  /- 0x9C -/ row .shyFn .shy 3 5 .absoluteX,
  /- 0x9D -/ row .staFn .sta 3 5 .absoluteX,
  /- 0x9E -/ row .shxFn .shx 3 5 .absoluteY,
  /- 0x9F -/ row .shaFn .sha 3 5 .absoluteY,
  /- 0xA0 -/ row .ldyFn .ldy 2 2 .immediate,
  /- 0xA1 -/ row .ldaFn .lda 2 6 .indirectX,
  /- 0xA2 -/ row .ldxFn .ldx 2 2 .immediate,
  /- 0xA3 -/ row .laxFn .lax 2 6 .indirectX,
  /- 0xA4 -/ row .ldyFn .ldy 2 3 .zeroPage,
  /- 0xA5 -/ row .ldaFn .lda 2 3 .zeroPage,
  /- 0xA6 -/ row .ldxFn .ldx 2 3 .zeroPage,
  /- 0xA7 -/ row .laxFn .lax 2 3 .zeroPage,
  /- 0xA8 -/ row .tayFn .tay 1 2 .implied,
  /- 0xA9 -/ row .ldaFn .lda 2 2 .immediate,
  /- 0xAA -/ row .taxFn .tax 1 2 .implied,
  /- 0xAB -/ row .lxaFn .lxa 2 2 .immediate,
  /- 0xAC -/ row .ldyFn .ldy 3 4 .absolute,
  /- 0xAD -/ row .ldaFn .lda 3 4 .absolute,
  /- 0xAE -/ row .ldxFn .ldx 3 4 .absolute,
  /- 0xAF -/ row .laxFn .lax 3 4 .absolute,
  /- 0xB0 -/ row .bcsFn .bcs 2 2 .relative,
  /- 0xB1 -/ row .ldaFn .lda 2 5 .indirectY,
  /- 0xB2 -/ row .jamFn .jam 1 1 .implied,
  /- 0xB3 -/ row .laxFn .lax 2 5 .indirectY,
  /- 0xB4 -/ row .ldyFn .ldy 2 4 .zeroPageX,
  /- 0xB5 -/ row .ldaFn .lda 2 4 .zeroPageX,
  /- 0xB6 -/ row .ldxFn .ldx 2 4 .zeroPageY,
  /- 0xB7 -/ row .laxFn .lax 2 4 .zeroPageY,
  /- 0xB8 -/ row .clvFn .clv 1 2 .implied,
  /- 0xB9 -/ row .ldaFn .lda 3 4 .absoluteY,
  /- 0xBA -/ row .tsxFn .tsx 1 2 .implied,
  /- 0xBB -/ row .lasFn .las 3 4 .absoluteY,
  /- 0xBC -/ row .ldyFn .ldy 3 4 .absoluteX,
  /- 0xBD -/ row .ldaFn .lda 3 4 .absoluteX,
  /- 0xBE -/ row .ldxFn .ldx 3 4 .absoluteY,
  /- 0xBF -/ row .laxFn .lax 3 4 .absoluteY,
  /- 0xC0 -/ row .cpyFn .cpy 2 2 .immediate,
  /- 0xC1 -/ row .cmpFn .cmp 2 6 .indirectX,
  /- 0xC2 -/ row .nopFn .nop 2 2 .immediate,
  /- 0xC3 -/ row .dcpFn .dcp 2 8 .indirectX,
  /- 0xC4 -/ row .cpyFn .cpy 2 3 .zeroPage,
  /- 0xC5 -/ row .cmpFn .cmp 2 3 .zeroPage,
  /- 0xC6 -/ row .decFn .dec 2 5 .zeroPage,
  /- 0xC7 -/ row .dcpFn .dcp 2 5 .zeroPage,
  /- 0xC8 -/ row .inyFn .iny 1 2 .implied,
  /- 0xC9 -/ row .cmpFn .cmp 2 2 .immediate,
  /- 0xCA -/ row .dexFn .dex 1 2 .implied,
  /- 0xCB -/ row .sbxFn .sbx 2 2 .immediate,
  /- 0xCC -/ row .cpyFn .cpy 3 4 .absolute,
  /- 0xCD -/ row .cmpFn .cmp 3 4 .absolute,
  /- 0xCE -/ row .decFn .dec 3 6 .absolute,
  /- 0xCF -/ row .dcpFn .dcp 3 6 .absolute,
  /- 0xD0 -/ row .bneFn .bne 2 2 .relative,
  /- 0xD1 -/ row .cmpFn .cmp 2 5 .indirectY,
  /- 0xD2 -/ row .jamFn .jam 1 1 .implied,
  /- 0xD3 -/ row .dcpFn .dcp 2 8 .indirectY,
  /- 0xD4 -/ row .nopFn .nop 2 4 .zeroPageX,
  /- 0xD5 -/ row .cmpFn .cmp 2 4 .zeroPageX,
  /- 0xD6 -/ row .decFn .dec 2 6 .zeroPageX,
  /- 0xD7 -/ row .dcpFn .dcp 2 6 .zeroPageX,
  /- 0xD8 -/ row .cldFn .cld 1 2 .implied,
  /- 0xD9 -/ row .cmpFn .cmp 3 4 .absoluteY,
  /- 0xDA -/ row .nopFn .nop 1 2 .implied,
  /- 0xDB -/ row .dcpFn .dcp 3 7 .absoluteY,
  /- 0xDC -/ row .nopFn .nop 3 4 .absoluteX,
  /- 0xDD -/ row .cmpFn .cmp 3 4 .absoluteX,
  /- 0xDE -/ row .decFn .dec 3 7 .absoluteX,
  /- 0xDF -/ row .dcpFn .dcp 3 7 .absoluteX,
  /- 0xE0 -/ row .cpxFn .cpx 2 2 .immediate,
  /- 0xE1 -/ row .sbcFn .sbc 2 6 .indirectX,
  /- 0xE2 -/ row .nopFn .nop 2 2 .immediate,
  /- 0xE3 -/ row .isbFn .isb 2 8 .indirectX,
  /- 0xE4 -/ row .cpxFn .cpx 2 3 .zeroPage,
  /- 0xE5 -/ row .sbcFn .sbc 2 3 .zeroPage,
  /- 0xE6 -/ row .incFn .inc 2 5 .zeroPage,
  /- 0xE7 -/ row .isbFn .isb 2 5 .zeroPage,
  /- 0xE8 -/ row .inxFn .inx 1 2 .implied,
  /- 0xE9 -/ row .sbcFn .sbc 2 2 .immediate,
  /- 0xEA -/ row .nopFn .nop 1 2 .implied,
  /- 0xEB -/ row .sbcFn .sbc 2 2 .immediate,
  /- 0xEC -/ row .cpxFn .cpx 3 4 .absolute,
  /- 0xED -/ row .sbcFn .sbc 3 4 .absolute,
  /- 0xEE -/ row .incFn .inc 3 6 .absolute,
  /- 0xEF -/ row .isbFn .isb 3 6 .absolute,
  /- 0xF0 -/ row .beqFn .beq 2 2 .relative,
  /- 0xF1 -/ row .sbcFn .sbc 2 5 .indirectY,
  /- 0xF2 -/ row .jamFn .jam 1 1 .implied,
  /- 0xF3 -/ row .isbFn .isb 2 8 .indirectY,
  /- 0xF4 -/ row .nopFn .nop 2 4 .zeroPageX,
  /- 0xF5 -/ row .sbcFn .sbc 2 4 .zeroPageX,
  /- 0xF6 -/ row .incFn .inc 2 6 .zeroPageX,
  /- 0xF7 -/ row .isbFn .isb 2 6 .zeroPageX,
  /- 0xF8 -/ row .sedFn .sed 1 2 .implied,
  /- 0xF9 -/ row .sbcFn .sbc 3 4 .absoluteY,
  /- 0xFA -/ row .nopFn .nop 1 2 .implied,
  /- 0xFB -/ row .isbFn .isb 3 7 .absoluteY,
  /- 0xFC -/ row .nopFn .nop 3 4 .absoluteX,
  /- 0xFD -/ row .sbcFn .sbc 3 4 .absoluteX,
  /- 0xFE -/ row .incFn .inc 3 7 .absoluteX,
  /- 0xFF -/ row .isbFn .isb 3 7 .absoluteX]

/-- The fetch. The source aborts on a row of any other length, and no row has one. -/
def getNextOpcode (bus : Bus) (programCounter : U16) : OpCode :=
  let mem := readMem bus programCounter
  let code := opcodes.get mem.toFin
  match code.bytes with
  | 1 => code
  | 2 => { code with byte := readMem bus (programCounter + 1) }
  | 3 =>
    { code with
      byte := readMem bus (programCounter + 1)
      ignored := readMem bus (programCounter + 2) }
  | _ => code

def getInstructionMnemonic : Instruction → String
  | .adc => "ADC"
  | .and => "AND"
  | .asl => "ASL"
  | .bcc => "BCC"
  | .bcs => "BCS"
  | .beq => "BEQ"
  | .bit => "BIT"
  | .bmi => "BMI"
  | .bne => "BNE"
  | .bpl => "BPL"
  | .brk => "BRK"
  | .bvc => "BVC"
  | .bvs => "BVS"
  | .clc => "CLC"
  | .cld => "CLD"
  | .cli => "CLI"
  | .clv => "CLV"
  | .cmp => "CMP"
  | .cpx => "CPX"
  | .cpy => "CPY"
  | .dec => "DEC"
  | .dex => "DEX"
  | .dey => "DEY"
  | .eor => "EOR"
  | .inc => "INC"
  | .inx => "INX"
  | .iny => "INY"
  | .jmp => "JMP"
  | .jsr => "JSR"
  | .lda => "LDA"
  | .ldx => "LDX"
  | .ldy => "LDY"
  | .lsr => "LSR"
  | .nop => "NOP"
  | .ora => "ORA"
  | .pha => "PHA"
  | .php => "PHP"
  | .pla => "PLA"
  | .plp => "PLP"
  | .rol => "ROL"
  | .ror => "ROR"
  | .rti => "RTI"
  | .rts => "RTS"
  | .sbc => "SBC"
  | .sec => "SEC"
  | .sed => "SED"
  | .sei => "SEI"
  | .sta => "STA"
  | .stx => "STX"
  | .sty => "STY"
  | .tax => "TAX"
  | .tay => "TAY"
  | .tsx => "TSX"
  | .txa => "TXA"
  | .txs => "TXS"
  | .tya => "TYA"
  | .alr => "ALR"
  | .anc => "ANC"
  | .ane => "ANE"
  | .arr => "ARR"
  | .dcp => "DCP"
  | .isb => "ISB"
  | .jam => "JAM"
  | .las => "LAS"
  | .lax => "LAX"
  | .lxa => "LXA"
  | .rla => "RLA"
  | .slo => "SLO"
  | .sre => "SRE"
  | .rra => "RRA"
  | .sax => "SAX"
  | .sbx => "SBX"
  | .sha => "SHA"
  | .shx => "SHX"
  | .shy => "SHY"
  | .tas => "TAS"

def instructionHasAdditionalCycleOnPageCrossing : Instruction → Bool
  | .adc | .and | .cmp | .eor | .lda | .ldx | .ldy | .nop | .ora | .sbc | .las | .lax => true
  | _ => false

end NesEmulator
