import Z80Cost.Instruction.Catalog

/-!
The instructions of the Z80, documented and undocumented, under the tag `S`, and the extensions of
the Z80N under the tag `N`. Operands are written as follows: `n`, `nn`, `o` and `b` for a byte, a
word, an offset and a bit, `r` for a register, `p` and `q` for a register or a half of `IX` and `IY`.
-/

namespace Z80Cost.Catalog

/-- A row whose time is the same whatever happens. -/
def steady (set text : String) (z80 msx cpc : Int64) (opcode : String) (size : Int64) : Pattern where
  set := set
  text := text
  timing := ⟨⟨z80, z80⟩, ⟨msx, msx⟩, ⟨cpc, cpc⟩⟩
  opcode := opcode
  size := size

/-- A row whose time depends on a condition. -/
def varying (set text : String) (z80min z80max msxMin msxMax cpcMin cpcMax : Int64)
    (opcode : String) (size : Int64) : Pattern where
  set := set
  text := text
  timing := ⟨⟨z80min, z80max⟩, ⟨msxMin, msxMax⟩, ⟨cpcMin, cpcMax⟩⟩
  opcode := opcode
  size := size

def z80Patterns : List Pattern :=
  [steady "S" "ADC A,(HL)" 7 8 2 "8E" 1,
   steady "S" "ADC A,(IX+o)" 19 21 5 "DD 8E o" 3,
   steady "S" "ADC A,(IY+o)" 19 21 5 "FD 8E o" 3,
   steady "S" "ADC A,n" 7 8 2 "CE n" 2,
   steady "S" "ADC A,r" 4 5 1 "88+r" 1,
   steady "S" "ADC A,IXh" 8 10 2 "DD 8C" 2,
   steady "S" "ADC A,IXl" 8 10 2 "DD 8D" 2,
   steady "S" "ADC A,IYh" 8 10 2 "FD 8C" 2,
   steady "S" "ADC A,IYl" 8 10 2 "FD 8D" 2,
   steady "S" "ADC HL,BC" 15 17 4 "ED 4A" 2,
   steady "S" "ADC HL,DE" 15 17 4 "ED 5A" 2,
   steady "S" "ADC HL,HL" 15 17 4 "ED 6A" 2,
   steady "S" "ADC HL,SP" 15 17 4 "ED 7A" 2,
   steady "S" "ADD A,(HL)" 7 8 2 "86" 1,
   steady "S" "ADD A,(IX+o)" 19 21 5 "DD 86 o" 3,
   steady "S" "ADD A,(IY+o)" 19 21 5 "FD 86 o" 3,
   steady "S" "ADD A,n" 7 8 2 "C6 n" 2,
   steady "S" "ADD A,r" 4 5 1 "80+r" 1,
   steady "S" "ADD A,IXh" 8 10 2 "DD 84" 2,
   steady "S" "ADD A,IXl" 8 10 2 "DD 85" 2,
   steady "S" "ADD A,IYh" 8 10 2 "FD 84" 2,
   steady "S" "ADD A,IYl" 8 10 2 "FD 85" 2,
   steady "S" "ADD HL,BC" 11 12 3 "09" 1,
   steady "S" "ADD HL,DE" 11 12 3 "19" 1,
   steady "S" "ADD HL,HL" 11 12 3 "29" 1,
   steady "S" "ADD HL,SP" 11 12 3 "39" 1,
   steady "S" "ADD IX,BC" 15 17 4 "DD 09" 2,
   steady "S" "ADD IX,DE" 15 17 4 "DD 19" 2,
   steady "S" "ADD IX,IX" 15 17 4 "DD 29" 2,
   steady "S" "ADD IX,SP" 15 17 4 "DD 39" 2,
   steady "S" "ADD IY,BC" 15 17 4 "FD 09" 2,
   steady "S" "ADD IY,DE" 15 17 4 "FD 19" 2,
   steady "S" "ADD IY,IY" 15 17 4 "FD 29" 2,
   steady "S" "ADD IY,SP" 15 17 4 "FD 39" 2,
   steady "N" "ADD HL,A" 8 10 2 "ED 31" 2,
   steady "N" "ADD DE,A" 8 10 2 "ED 32" 2,
   steady "N" "ADD BC,A" 8 10 2 "ED 33" 2,
   steady "N" "ADD HL,nn" 16 18 4 "ED 34 n n" 4,
   steady "N" "ADD DE,nn" 16 18 4 "ED 35 n n" 4,
   steady "N" "ADD BC,nn" 16 18 4 "ED 36 n n" 4,
   steady "S" "AND (HL)" 7 8 2 "A6" 1,
   steady "S" "AND (IX+o)" 19 21 5 "DD A6 o" 3,
   steady "S" "AND (IY+o)" 19 21 5 "FD A6 o" 3,
   steady "S" "AND n" 7 8 2 "E6 n" 2,
   steady "S" "AND r" 4 5 1 "A0+r" 1,
   steady "S" "AND IXh" 8 10 2 "DD A4" 2,
   steady "S" "AND IXl" 8 10 2 "DD A5" 2,
   steady "S" "AND IYh" 8 10 2 "FD A4" 2,
   steady "S" "AND IYl" 8 10 2 "FD A5" 2,
   steady "S" "BIT b,(HL)" 12 14 3 "CB 46+8*b" 2,
   steady "S" "BIT b,(IX+o)" 20 22 6 "DD CB o 46+8*b" 4,
   steady "S" "BIT b,(IY+o)" 20 22 6 "FD CB o 46+8*b" 4,
   steady "S" "BIT b,A" 8 10 2 "CB 47+8*b" 2,
   steady "S" "BIT b,r" 8 10 2 "CB 40+8*b+r" 2,
   steady "N" "BRLC DE,B" 8 10 2 "ED 2C" 2,
   steady "N" "BSLA DE,B" 8 10 2 "ED 28" 2,
   steady "N" "BSRA DE,B" 8 10 2 "ED 29" 2,
   steady "N" "BSRF DE,B" 8 10 2 "ED 2B" 2,
   steady "N" "BSRL DE,B" 8 10 2 "ED 2A" 2,
   varying "S" "CALL C,nn" 10 17 11 18 3 5 "DC n n" 3,
   varying "S" "CALL M,nn" 10 17 11 18 3 5 "FC n n" 3,
   varying "S" "CALL NC,nn" 10 17 11 18 3 5 "D4 n n" 3,
   varying "S" "CALL NZ,nn" 10 17 11 18 3 5 "C4 n n" 3,
   varying "S" "CALL P,nn" 10 17 11 18 3 5 "F4 n n" 3,
   varying "S" "CALL PE,nn" 10 17 11 18 3 5 "EC n n" 3,
   varying "S" "CALL PO,nn" 10 17 11 18 3 5 "E4 n n" 3,
   varying "S" "CALL Z,nn" 10 17 11 18 3 5 "CC n n" 3,
   steady "S" "CALL nn" 17 18 5 "CD n n" 3,
   steady "S" "CCF" 4 5 1 "3F" 1,
   steady "S" "CP (HL)" 7 8 2 "BE" 1,
   steady "S" "CP (IX+o)" 19 21 5 "DD BE o" 3,
   steady "S" "CP (IY+o)" 19 21 5 "FD BE o" 3,
   steady "S" "CP n" 7 8 2 "FE n" 2,
   steady "S" "CP r" 4 5 1 "B8+r" 1,
   steady "S" "CP IXh" 8 10 2 "DD BC" 2,
   steady "S" "CP IXl" 8 10 2 "DD BD" 2,
   steady "S" "CP IYh" 8 10 2 "FD BC" 2,
   steady "S" "CP IYl" 8 10 2 "FD BD" 2,
   steady "S" "CPD" 16 18 4 "ED A9" 2,
   varying "S" "CPDR" 16 21 18 23 4 6 "ED B9" 2,
   steady "S" "CPI" 16 18 4 "ED A1" 2,
   varying "S" "CPIR" 16 21 18 23 4 6 "ED B1" 2,
   steady "S" "CPL" 4 5 1 "2F" 1,
   steady "S" "DAA" 4 5 1 "27" 1,
   steady "S" "DEC (HL)" 11 12 3 "35" 1,
   steady "S" "DEC (IX+o)" 23 25 6 "DD 35 o" 3,
   steady "S" "DEC (IY+o)" 23 25 6 "FD 35 o" 3,
   steady "S" "DEC A" 4 5 1 "3D" 1,
   steady "S" "DEC B" 4 5 1 "05" 1,
   steady "S" "DEC C" 4 5 1 "0D" 1,
   steady "S" "DEC D" 4 5 1 "15" 1,
   steady "S" "DEC E" 4 5 1 "1D" 1,
   steady "S" "DEC H" 4 5 1 "25" 1,
   steady "S" "DEC L" 4 5 1 "2D" 1,
   steady "S" "DEC BC" 6 7 2 "0B" 1,
   steady "S" "DEC DE" 6 7 2 "1B" 1,
   steady "S" "DEC HL" 6 7 2 "2B" 1,
   steady "S" "DEC SP" 6 7 2 "3B" 1,
   steady "S" "DEC IX" 10 12 3 "DD 2B" 2,
   steady "S" "DEC IY" 10 12 3 "FD 2B" 2,
   steady "S" "DEC IXh" 8 10 2 "DD 25" 2,
   steady "S" "DEC IXl" 8 10 2 "DD 2D" 2,
   steady "S" "DEC IYh" 8 10 2 "FD 25" 2,
   steady "S" "DEC IYl" 8 10 2 "FD 2D" 2,
   steady "S" "DI" 4 5 1 "F3" 1,
   varying "S" "DJNZ o" 8 13 9 14 3 4 "10 o" 2,
   steady "S" "EI" 4 5 1 "FB" 1,
   steady "S" "EX (SP),HL" 19 20 6 "E3" 1,
   steady "S" "EX (SP),IX" 23 25 7 "DD E3" 2,
   steady "S" "EX (SP),IY" 23 25 7 "FD E3" 2,
   steady "S" "EX AF,AF'" 4 5 1 "08" 1,
   steady "S" "EX DE,HL" 4 5 1 "EB" 1,
   steady "S" "EXX" 4 5 1 "D9" 1,
   steady "S" "HALT" 4 5 1 "76" 1,
   steady "S" "IM 0" 8 10 2 "ED 46" 2,
   steady "S" "IM 1" 8 10 2 "ED 56" 2,
   steady "S" "IM 2" 8 10 2 "ED 5E" 2,
   steady "S" "IN A,(C)" 12 14 4 "ED 78" 2,
   steady "S" "IN A,(n)" 11 12 3 "DB n" 2,
   steady "S" "IN F,(C)" 12 14 4 "ED 70" 2,
   steady "S" "IN r,(C)" 12 14 4 "ED 40+8*r" 2,
   steady "S" "INC (HL)" 11 12 3 "34" 1,
   steady "S" "INC (IX+o)" 23 25 6 "DD 34 o" 3,
   steady "S" "INC (IY+o)" 23 25 6 "FD 34 o" 3,
   steady "S" "INC A" 4 5 1 "3C" 1,
   steady "S" "INC B" 4 5 1 "04" 1,
   steady "S" "INC C" 4 5 1 "0C" 1,
   steady "S" "INC D" 4 5 1 "14" 1,
   steady "S" "INC E" 4 5 1 "1C" 1,
   steady "S" "INC H" 4 5 1 "24" 1,
   steady "S" "INC L" 4 5 1 "2C" 1,
   steady "S" "INC BC" 6 7 2 "03" 1,
   steady "S" "INC DE" 6 7 2 "13" 1,
   steady "S" "INC HL" 6 7 2 "23" 1,
   steady "S" "INC SP" 6 7 2 "33" 1,
   steady "S" "INC IX" 10 12 3 "DD 23" 2,
   steady "S" "INC IY" 10 12 3 "FD 23" 2,
   steady "S" "INC IXh" 8 10 2 "DD 24" 2,
   steady "S" "INC IXl" 8 10 2 "DD 2C" 2,
   steady "S" "INC IYh" 8 10 2 "FD 24" 2,
   steady "S" "INC IYl" 8 10 2 "FD 2C" 2,
   steady "S" "IND" 16 18 5 "ED AA" 2,
   varying "S" "INDR" 16 21 18 23 5 6 "ED BA" 2,
   steady "S" "INI" 16 18 5 "ED A2" 2,
   varying "S" "INIR" 16 21 18 23 5 6 "ED B2" 2,
   steady "S" "JP (HL)" 4 5 1 "E9" 1,
   steady "S" "JP (IX)" 8 10 2 "DD E9" 2,
   steady "S" "JP (IY)" 8 10 2 "FD E9" 2,
   steady "N" "JP (C)" 13 15 4 "ED 98" 2,
   steady "S" "JP C,nn" 10 11 3 "DA n n" 3,
   steady "S" "JP M,nn" 10 11 3 "FA n n" 3,
   steady "S" "JP NC,nn" 10 11 3 "D2 n n" 3,
   steady "S" "JP NZ,nn" 10 11 3 "C2 n n" 3,
   steady "S" "JP P,nn" 10 11 3 "F2 n n" 3,
   steady "S" "JP PE,nn" 10 11 3 "EA n n" 3,
   steady "S" "JP PO,nn" 10 11 3 "E2 n n" 3,
   steady "S" "JP Z,nn" 10 11 3 "CA n n" 3,
   steady "S" "JP nn" 10 11 3 "C3 n n" 3,
   varying "S" "JR C,o" 7 12 8 13 2 3 "38 o" 2,
   varying "S" "JR NC,o" 7 12 8 13 2 3 "30 o" 2,
   varying "S" "JR NZ,o" 7 12 8 13 2 3 "20 o" 2,
   varying "S" "JR Z,o" 7 12 8 13 2 3 "28 o" 2,
   steady "S" "JR o" 12 13 3 "18 o" 2,
   steady "S" "LD (BC),A" 7 8 2 "02" 1,
   steady "S" "LD (DE),A" 7 8 2 "12" 1,
   steady "S" "LD (HL),n" 10 11 3 "36 n" 2,
   steady "S" "LD (HL),r" 7 8 2 "70+r" 1,
   steady "S" "LD (IX+o),n" 19 21 6 "DD 36 o n" 4,
   steady "S" "LD (IX+o),A" 19 21 5 "DD 77 o" 3,
   steady "S" "LD (IX+o),r" 19 21 5 "DD 70+r o" 3,
   steady "S" "LD (IY+o),n" 19 21 6 "FD 36 o n" 4,
   steady "S" "LD (IY+o),A" 19 21 5 "FD 77 o" 3,
   steady "S" "LD (IY+o),r" 19 21 5 "FD 70+r o" 3,
   steady "S" "LD (nn),A" 13 14 4 "32 n n" 3,
   steady "S" "LD (nn),BC" 20 22 6 "ED 43 n n" 4,
   steady "S" "LD (nn),DE" 20 22 6 "ED 53 n n" 4,
   steady "S" "LD (nn),HL" 16 17 5 "22 n n" 3,
   steady "S" "LD (nn),IX" 20 22 6 "DD 22 n n" 4,
   steady "S" "LD (nn),IY" 20 22 6 "FD 22 n n" 4,
   steady "S" "LD (nn),SP" 20 22 6 "ED 73 n n" 4,
   steady "S" "LD A,(BC)" 7 8 2 "0A" 1,
   steady "S" "LD A,(DE)" 7 8 2 "1A" 1,
   steady "S" "LD A,(HL)" 7 8 2 "7E" 1,
   steady "S" "LD A,(IX+o)" 19 21 5 "DD 7E o" 3,
   steady "S" "LD A,(IY+o)" 19 21 5 "FD 7E o" 3,
   steady "S" "LD A,(nn)" 13 14 4 "3A n n" 3,
   steady "S" "LD A,I" 9 11 3 "ED 57" 2,
   steady "S" "LD A,R" 9 11 3 "ED 5F" 2,
   steady "S" "LD A,IXh" 8 10 2 "DD 7C" 2,
   steady "S" "LD A,IXl" 8 10 2 "DD 7D" 2,
   steady "S" "LD A,IYh" 8 10 2 "FD 7C" 2,
   steady "S" "LD A,IYl" 8 10 2 "FD 7D" 2,
   steady "S" "LD A,r" 4 5 1 "78+r" 1,
   steady "S" "LD A,n" 7 8 2 "3E n" 2,
   steady "S" "LD B,r" 4 5 1 "40+r" 1,
   steady "S" "LD C,r" 4 5 1 "48+r" 1,
   steady "S" "LD D,r" 4 5 1 "50+r" 1,
   steady "S" "LD E,r" 4 5 1 "58+r" 1,
   steady "S" "LD H,r" 4 5 1 "60+r" 1,
   steady "S" "LD L,r" 4 5 1 "68+r" 1,
   steady "S" "LD r,(HL)" 7 8 2 "46+8*r" 1,
   steady "S" "LD r,(IX+o)" 19 21 5 "DD 46+8*r o" 3,
   steady "S" "LD r,(IY+o)" 19 21 5 "FD 46+8*r o" 3,
   steady "S" "LD r,n" 7 8 2 "06+8*r n" 2,
   steady "S" "LD I,A" 9 11 3 "ED 47" 2,
   steady "S" "LD R,A" 9 11 3 "ED 4F" 2,
   steady "S" "LD IXh,A" 8 10 2 "DD 67" 2,
   steady "S" "LD IXh,n" 11 13 3 "DD 26 n" 3,
   steady "S" "LD IXh,p" 8 10 2 "DD 60+p" 2,
   steady "S" "LD IXl,A" 8 10 2 "DD 6F" 2,
   steady "S" "LD IXl,n" 11 13 3 "DD 2E n" 3,
   steady "S" "LD IXl,p" 8 10 2 "DD 68+p" 2,
   steady "S" "LD IYh,A" 8 10 2 "FD 67" 2,
   steady "S" "LD IYh,n" 11 13 3 "FD 26 n" 3,
   steady "S" "LD IYh,q" 8 10 2 "FD 60+q" 2,
   steady "S" "LD IYl,A" 8 10 2 "FD 6F" 2,
   steady "S" "LD IYl,n" 11 13 3 "FD 2E n" 3,
   steady "S" "LD IYl,q" 8 10 2 "FD 68+q" 2,
   steady "S" "LD p,IXh" 8 10 2 "DD 44+8*p" 2,
   steady "S" "LD p,IXl" 8 10 2 "DD 45+8*p" 2,
   steady "S" "LD q,IYh" 8 10 2 "FD 44+8*q" 2,
   steady "S" "LD q,IYl" 8 10 2 "FD 45+8*q" 2,
   steady "S" "LD BC,(nn)" 20 22 6 "ED 4B n n" 4,
   steady "S" "LD DE,(nn)" 20 22 6 "ED 5B n n" 4,
   steady "S" "LD HL,(nn)" 16 17 5 "2A n n" 3,
   steady "S" "LD IX,(nn)" 20 22 6 "DD 2A n n" 4,
   steady "S" "LD IY,(nn)" 20 22 6 "FD 2A n n" 4,
   steady "S" "LD SP,(nn)" 20 22 6 "ED 7B n n" 4,
   steady "S" "LD BC,nn" 10 11 3 "01 n n" 3,
   steady "S" "LD DE,nn" 10 11 3 "11 n n" 3,
   steady "S" "LD HL,nn" 10 11 3 "21 n n" 3,
   steady "S" "LD IX,nn" 14 16 4 "DD 21 n n" 4,
   steady "S" "LD IY,nn" 14 16 4 "FD 21 n n" 4,
   steady "S" "LD SP,nn" 10 11 3 "31 n n" 3,
   steady "S" "LD SP,HL" 6 7 2 "F9" 1,
   steady "S" "LD SP,IX" 10 12 3 "DD F9" 2,
   steady "S" "LD SP,IY" 10 12 3 "FD F9" 2,
   steady "S" "LDD" 16 18 5 "ED A8" 2,
   varying "S" "LDDR" 16 21 18 23 5 6 "ED B8" 2,
   varying "N" "LDDRX" 16 21 18 23 4 6 "ED BC" 2,
   steady "N" "LDDX" 16 18 4 "ED AC" 2,
   steady "S" "LDI" 16 18 5 "ED A0" 2,
   varying "S" "LDIR" 16 21 18 23 5 6 "ED B0" 2,
   varying "N" "LDIRX" 16 21 18 23 4 6 "ED B4" 2,
   steady "N" "LDIX" 16 18 4 "ED A4" 2,
   varying "N" "LDPIRX" 16 21 18 23 4 6 "ED B7" 2,
   steady "N" "LDWS" 14 16 4 "ED A5" 2,
   steady "N" "MIRROR" 8 10 2 "ED 24" 2,
   steady "N" "MIRROR A" 8 10 2 "ED 24" 2,
   steady "N" "MUL D,E" 8 10 2 "ED 30" 2,
   steady "S" "NEG" 8 10 2 "ED 44" 2,
   steady "N" "NEXTREG n,A" 17 19 5 "ED 92 n" 3,
   steady "N" "NEXTREG n,n" 20 22 5 "ED 91 n n" 4,
   steady "S" "NOP" 4 5 1 "00" 1,
   steady "S" "OR (HL)" 7 8 2 "B6" 1,
   steady "S" "OR (IX+o)" 19 21 5 "DD B6 o" 3,
   steady "S" "OR (IY+o)" 19 21 5 "FD B6 o" 3,
   steady "S" "OR n" 7 8 2 "F6 n" 2,
   steady "S" "OR r" 4 5 1 "B0+r" 1,
   steady "S" "OR IXh" 8 10 2 "DD B4" 2,
   steady "S" "OR IXl" 8 10 2 "DD B5" 2,
   steady "S" "OR IYh" 8 10 2 "FD B4" 2,
   steady "S" "OR IYl" 8 10 2 "FD B5" 2,
   varying "S" "OTDR" 16 21 18 23 5 6 "ED BB" 2,
   varying "S" "OTIR" 16 21 18 23 5 6 "ED B3" 2,
   steady "S" "OUT (C),0" 12 14 4 "ED 71" 2,
   steady "S" "OUT (C),A" 12 14 4 "ED 79" 2,
   steady "S" "OUT (C),r" 12 14 4 "ED 41+8*r" 2,
   steady "S" "OUT (n),A" 11 12 3 "D3 n" 2,
   steady "S" "OUTD" 16 18 5 "ED AB" 2,
   steady "S" "OUTI" 16 18 5 "ED A3" 2,
   steady "N" "OUTINB" 16 18 4 "ED 90" 2,
   steady "N" "PIXELAD" 8 10 2 "ED 94" 2,
   steady "N" "PIXELDN" 8 10 2 "ED 93" 2,
   steady "S" "POP AF" 10 11 3 "F1" 1,
   steady "S" "POP BC" 10 11 3 "C1" 1,
   steady "S" "POP DE" 10 11 3 "D1" 1,
   steady "S" "POP HL" 10 11 3 "E1" 1,
   steady "S" "POP IX" 14 16 4 "DD E1" 2,
   steady "S" "POP IY" 14 16 4 "FD E1" 2,
   steady "S" "PUSH AF" 11 12 4 "F5" 1,
   steady "S" "PUSH BC" 11 12 4 "C5" 1,
   steady "S" "PUSH DE" 11 12 4 "D5" 1,
   steady "S" "PUSH HL" 11 12 4 "E5" 1,
   steady "S" "PUSH IX" 15 17 5 "DD E5" 2,
   steady "S" "PUSH IY" 15 17 5 "FD E5" 2,
   steady "N" "PUSH nn" 23 25 6 "ED 8A n n" 4,
   steady "S" "RES b,(HL)" 15 17 4 "CB 86+8*b" 2,
   steady "S" "RES b,(IX+o)" 23 25 7 "DD CB o 86+8*b" 4,
   steady "S" "RES b,(IY+o)" 23 25 7 "FD CB o 86+8*b" 4,
   steady "S" "RES b,A" 8 10 2 "CB 87+8*b" 2,
   steady "S" "RES b,r" 8 10 2 "CB 80+8*b+r" 2,
   steady "S" "RET" 10 11 3 "C9" 1,
   varying "S" "RET C" 5 11 6 12 2 4 "D8" 1,
   varying "S" "RET M" 5 11 6 12 2 4 "F8" 1,
   varying "S" "RET NC" 5 11 6 12 2 4 "D0" 1,
   varying "S" "RET NZ" 5 11 6 12 2 4 "C0" 1,
   varying "S" "RET P" 5 11 6 12 2 4 "F0" 1,
   varying "S" "RET PE" 5 11 6 12 2 4 "E8" 1,
   varying "S" "RET PO" 5 11 6 12 2 4 "E0" 1,
   varying "S" "RET Z" 5 11 6 12 2 4 "C8" 1,
   steady "S" "RETI" 14 16 4 "ED 4D" 2,
   steady "S" "RETN" 14 16 4 "ED 45" 2,
   steady "S" "RL (HL)" 15 17 4 "CB 16" 2,
   steady "S" "RL (IX+o)" 23 25 7 "DD CB o 16" 4,
   steady "S" "RL (IY+o)" 23 25 7 "FD CB o 16" 4,
   steady "S" "RL A" 8 10 2 "CB 17" 2,
   steady "S" "RL r" 8 10 2 "CB 10+r" 2,
   steady "S" "RLA" 4 5 1 "17" 1,
   steady "S" "RLC (HL)" 15 17 4 "CB 06" 2,
   steady "S" "RLC (IX+o)" 23 25 7 "DD CB o 06" 4,
   steady "S" "RLC (IY+o)" 23 25 7 "FD CB o 06" 4,
   steady "S" "RLC A" 8 10 2 "CB 07" 2,
   steady "S" "RLC r" 8 10 2 "CB 00+r" 2,
   steady "S" "RLCA" 4 5 1 "07" 1,
   steady "S" "RLD" 18 20 5 "ED 6F" 2,
   steady "S" "RR (HL)" 15 17 4 "CB 1E" 2,
   steady "S" "RR (IX+o)" 23 25 7 "DD CB o 1E" 4,
   steady "S" "RR (IY+o)" 23 25 7 "FD CB o 1E" 4,
   steady "S" "RR A" 8 10 2 "CB 1F" 2,
   steady "S" "RR r" 8 10 2 "CB 18+r" 2,
   steady "S" "RRA" 4 5 1 "1F" 1,
   steady "S" "RRC (HL)" 15 17 4 "CB 0E" 2,
   steady "S" "RRC (IX+o)" 23 25 7 "DD CB o 0E" 4,
   steady "S" "RRC (IY+o)" 23 25 7 "FD CB o 0E" 4,
   steady "S" "RRC A" 8 10 2 "CB 0F" 2,
   steady "S" "RRC r" 8 10 2 "CB 08+r" 2,
   steady "S" "RRCA" 4 5 1 "0F" 1,
   steady "S" "RRD" 18 20 5 "ED 67" 2,
   steady "S" "RST 0" 11 12 4 "C7" 1,
   steady "S" "RST 8" 11 12 4 "CF" 1,
   steady "S" "RST 10H" 11 12 4 "D7" 1,
   steady "S" "RST 18H" 11 12 4 "DF" 1,
   steady "S" "RST 20H" 11 12 4 "E7" 1,
   steady "S" "RST 28H" 11 12 4 "EF" 1,
   steady "S" "RST 30H" 11 12 4 "F7" 1,
   steady "S" "RST 38H" 11 12 4 "FF" 1,
   steady "S" "SBC A,(HL)" 7 8 2 "9E" 1,
   steady "S" "SBC A,(IX+o)" 19 21 5 "DD 9E o" 3,
   steady "S" "SBC A,(IY+o)" 19 21 5 "FD 9E o" 3,
   steady "S" "SBC A,n" 7 8 2 "DE n" 2,
   steady "S" "SBC A,r" 4 5 1 "98+r" 1,
   steady "S" "SBC A,IXh" 8 10 2 "DD 9C" 2,
   steady "S" "SBC A,IXl" 8 10 2 "DD 9D" 2,
   steady "S" "SBC A,IYh" 8 10 2 "FD 9C" 2,
   steady "S" "SBC A,IYl" 8 10 2 "FD 9D" 2,
   steady "S" "SBC HL,BC" 15 17 4 "ED 42" 2,
   steady "S" "SBC HL,DE" 15 17 4 "ED 52" 2,
   steady "S" "SBC HL,HL" 15 17 4 "ED 62" 2,
   steady "S" "SBC HL,SP" 15 17 4 "ED 72" 2,
   steady "S" "SCF" 4 5 1 "37" 1,
   steady "S" "SET b,(HL)" 15 17 4 "CB C6+8*b" 2,
   steady "S" "SET b,(IX+o)" 23 25 7 "DD CB o C6+8*b" 4,
   steady "S" "SET b,(IY+o)" 23 25 7 "FD CB o C6+8*b" 4,
   steady "S" "SET b,A" 8 10 2 "CB C7+8*b" 2,
   steady "S" "SET b,r" 8 10 2 "CB C0+8*b+r" 2,
   steady "N" "SETAE" 8 10 2 "ED 95" 2,
   steady "S" "SLA (HL)" 15 17 4 "CB 26" 2,
   steady "S" "SLA (IX+o)" 23 25 7 "DD CB o 26" 4,
   steady "S" "SLA (IY+o)" 23 25 7 "FD CB o 26" 4,
   steady "S" "SLA A" 8 10 2 "CB 27" 2,
   steady "S" "SLA r" 8 10 2 "CB 20+r" 2,
   steady "S" "SLL (HL)" 15 17 4 "CB 36" 2,
   steady "S" "SLL (IX+o)" 23 25 7 "DD CB o 36" 4,
   steady "S" "SLL (IY+o)" 23 25 7 "FD CB o 36" 4,
   steady "S" "SLL A" 8 10 2 "CB 37" 2,
   steady "S" "SLL r" 8 10 2 "CB 30+r" 2,
   steady "S" "SRA (HL)" 15 17 4 "CB 2E" 2,
   steady "S" "SRA (IX+o)" 23 25 7 "DD CB o 2E" 4,
   steady "S" "SRA (IY+o)" 23 25 7 "FD CB o 2E" 4,
   steady "S" "SRA A" 8 10 2 "CB 2F" 2,
   steady "S" "SRA r" 8 10 2 "CB 28+r" 2,
   steady "S" "SRL (HL)" 15 17 4 "CB 3E" 2,
   steady "S" "SRL (IX+o)" 23 25 7 "DD CB o 3E" 4,
   steady "S" "SRL (IY+o)" 23 25 7 "FD CB o 3E" 4,
   steady "S" "SRL A" 8 10 2 "CB 3F" 2,
   steady "S" "SRL r" 8 10 2 "CB 38+r" 2,
   steady "S" "SUB (HL)" 7 8 2 "96" 1,
   steady "S" "SUB (IX+o)" 19 21 5 "DD 96 o" 3,
   steady "S" "SUB (IY+o)" 19 21 5 "FD 96 o" 3,
   steady "S" "SUB n" 7 8 2 "D6 n" 2,
   steady "S" "SUB r" 4 5 1 "90+r" 1,
   steady "S" "SUB IXh" 8 10 2 "DD 94" 2,
   steady "S" "SUB IXl" 8 10 2 "DD 95" 2,
   steady "S" "SUB IYh" 8 10 2 "FD 94" 2,
   steady "S" "SUB IYl" 8 10 2 "FD 95" 2,
   steady "N" "SWAPNIB" 8 10 2 "ED 23" 2,
   steady "N" "TEST n" 11 13 3 "ED 27 n" 3,
   steady "S" "XOR (HL)" 7 8 2 "AE" 1,
   steady "S" "XOR (IX+o)" 19 21 5 "DD AE o" 3,
   steady "S" "XOR (IY+o)" 19 21 5 "FD AE o" 3,
   steady "S" "XOR n" 7 8 2 "EE n" 2,
   steady "S" "XOR r" 4 5 1 "A8+r" 1,
   steady "S" "XOR IXh" 8 10 2 "DD AC" 2,
   steady "S" "XOR IXl" 8 10 2 "DD AD" 2,
   steady "S" "XOR IYh" 8 10 2 "FD AC" 2,
   steady "S" "XOR IYl" 8 10 2 "FD AD" 2]

def z80 : Catalog := ofPatterns z80Patterns

end Z80Cost.Catalog
