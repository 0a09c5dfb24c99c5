import InterfaceGen.Text.Letter

/-! The default case mappings of Unicode (version 17.0). Most characters move by a fixed distance;
some grow into several characters. A text lowered as a whole writes a capital sigma at the end of a
word as final sigma, which the mapping of a single character cannot know. -/

namespace InterfaceGen.Text

open Run

/-- Characters that all move by the same distance. -/
structure Shift where
  run : Run
  distance : Int
deriving DecidableEq, Repr

/-- Moves `n` by the distance of the shift that contains it; the shifts ascend. -/
def shift : List Shift → Nat → Nat
  | [], n => n
  | s :: rest, n =>
    if n < s.run.first then n
    else if s.run.contains n then ((n : Int) + s.distance).toNat
    else shift rest n

/-- Characters with one character as their lower case. -/
def lowerShifts : List Shift :=
  [⟨span 0x41 0x5a, 32⟩, ⟨span 0xc0 0xd6, 32⟩, ⟨span 0xd8 0xde, 32⟩, ⟨alternate 0x100 0x12e, 1⟩,
   ⟨alternate 0x132 0x136, 1⟩, ⟨alternate 0x139 0x147, 1⟩, ⟨alternate 0x14a 0x176, 1⟩,
   ⟨one 0x178, -121⟩, ⟨alternate 0x179 0x17d, 1⟩, ⟨one 0x181, 210⟩, ⟨alternate 0x182 0x184, 1⟩,
   ⟨one 0x186, 206⟩, ⟨one 0x187, 1⟩, ⟨span 0x189 0x18a, 205⟩, ⟨one 0x18b, 1⟩, ⟨one 0x18e, 79⟩,
   ⟨one 0x18f, 202⟩, ⟨one 0x190, 203⟩, ⟨one 0x191, 1⟩, ⟨one 0x193, 205⟩, ⟨one 0x194, 207⟩,
   ⟨one 0x196, 211⟩, ⟨one 0x197, 209⟩, ⟨one 0x198, 1⟩, ⟨one 0x19c, 211⟩, ⟨one 0x19d, 213⟩,
   ⟨one 0x19f, 214⟩, ⟨alternate 0x1a0 0x1a4, 1⟩, ⟨one 0x1a6, 218⟩, ⟨one 0x1a7, 1⟩,
   ⟨one 0x1a9, 218⟩, ⟨one 0x1ac, 1⟩, ⟨one 0x1ae, 218⟩, ⟨one 0x1af, 1⟩, ⟨span 0x1b1 0x1b2, 217⟩,
   ⟨alternate 0x1b3 0x1b5, 1⟩, ⟨one 0x1b7, 219⟩, ⟨one 0x1b8, 1⟩, ⟨one 0x1bc, 1⟩, ⟨one 0x1c4, 2⟩,
   ⟨one 0x1c5, 1⟩, ⟨one 0x1c7, 2⟩, ⟨one 0x1c8, 1⟩, ⟨one 0x1ca, 2⟩, ⟨alternate 0x1cb 0x1db, 1⟩,
   ⟨alternate 0x1de 0x1ee, 1⟩, ⟨one 0x1f1, 2⟩, ⟨alternate 0x1f2 0x1f4, 1⟩, ⟨one 0x1f6, -97⟩,
   ⟨one 0x1f7, -56⟩, ⟨alternate 0x1f8 0x21e, 1⟩, ⟨one 0x220, -130⟩, ⟨alternate 0x222 0x232, 1⟩,
   ⟨one 0x23a, 10795⟩, ⟨one 0x23b, 1⟩, ⟨one 0x23d, -163⟩, ⟨one 0x23e, 10792⟩, ⟨one 0x241, 1⟩,
   ⟨one 0x243, -195⟩, ⟨one 0x244, 69⟩, ⟨one 0x245, 71⟩, ⟨alternate 0x246 0x24e, 1⟩,
   ⟨alternate 0x370 0x372, 1⟩, ⟨one 0x376, 1⟩, ⟨one 0x37f, 116⟩, ⟨one 0x386, 38⟩,
   ⟨span 0x388 0x38a, 37⟩, ⟨one 0x38c, 64⟩, ⟨span 0x38e 0x38f, 63⟩, ⟨span 0x391 0x3a1, 32⟩,
   ⟨span 0x3a3 0x3ab, 32⟩, ⟨one 0x3cf, 8⟩, ⟨alternate 0x3d8 0x3ee, 1⟩, ⟨one 0x3f4, -60⟩,
   ⟨one 0x3f7, 1⟩, ⟨one 0x3f9, -7⟩, ⟨one 0x3fa, 1⟩, ⟨span 0x3fd 0x3ff, -130⟩,
   ⟨span 0x400 0x40f, 80⟩, ⟨span 0x410 0x42f, 32⟩, ⟨alternate 0x460 0x480, 1⟩,
   ⟨alternate 0x48a 0x4be, 1⟩, ⟨one 0x4c0, 15⟩, ⟨alternate 0x4c1 0x4cd, 1⟩,
   ⟨alternate 0x4d0 0x52e, 1⟩, ⟨span 0x531 0x556, 48⟩, ⟨span 0x10a0 0x10c5, 7264⟩,
   ⟨one 0x10c7, 7264⟩, ⟨one 0x10cd, 7264⟩, ⟨span 0x13a0 0x13ef, 38864⟩, ⟨span 0x13f0 0x13f5, 8⟩,
   ⟨one 0x1c89, 1⟩, ⟨span 0x1c90 0x1cba, -3008⟩, ⟨span 0x1cbd 0x1cbf, -3008⟩,
   ⟨alternate 0x1e00 0x1e94, 1⟩, ⟨one 0x1e9e, -7615⟩, ⟨alternate 0x1ea0 0x1efe, 1⟩,
   ⟨span 0x1f08 0x1f0f, -8⟩, ⟨span 0x1f18 0x1f1d, -8⟩, ⟨span 0x1f28 0x1f2f, -8⟩,
   ⟨span 0x1f38 0x1f3f, -8⟩, ⟨span 0x1f48 0x1f4d, -8⟩, ⟨alternate 0x1f59 0x1f5f, -8⟩,
   ⟨span 0x1f68 0x1f6f, -8⟩, ⟨span 0x1f88 0x1f8f, -8⟩, ⟨span 0x1f98 0x1f9f, -8⟩,
   ⟨span 0x1fa8 0x1faf, -8⟩, ⟨span 0x1fb8 0x1fb9, -8⟩, ⟨span 0x1fba 0x1fbb, -74⟩,
   ⟨one 0x1fbc, -9⟩, ⟨span 0x1fc8 0x1fcb, -86⟩, ⟨one 0x1fcc, -9⟩, ⟨span 0x1fd8 0x1fd9, -8⟩,
   ⟨span 0x1fda 0x1fdb, -100⟩, ⟨span 0x1fe8 0x1fe9, -8⟩, ⟨span 0x1fea 0x1feb, -112⟩,
   ⟨one 0x1fec, -7⟩, ⟨span 0x1ff8 0x1ff9, -128⟩, ⟨span 0x1ffa 0x1ffb, -126⟩, ⟨one 0x1ffc, -9⟩,
   ⟨one 0x2126, -7517⟩, ⟨one 0x212a, -8383⟩, ⟨one 0x212b, -8262⟩, ⟨one 0x2132, 28⟩,
   ⟨span 0x2160 0x216f, 16⟩, ⟨one 0x2183, 1⟩, ⟨span 0x24b6 0x24cf, 26⟩, ⟨span 0x2c00 0x2c2f, 48⟩,
   ⟨one 0x2c60, 1⟩, ⟨one 0x2c62, -10743⟩, ⟨one 0x2c63, -3814⟩, ⟨one 0x2c64, -10727⟩,
   ⟨alternate 0x2c67 0x2c6b, 1⟩, ⟨one 0x2c6d, -10780⟩, ⟨one 0x2c6e, -10749⟩, ⟨one 0x2c6f, -10783⟩,
   ⟨one 0x2c70, -10782⟩, ⟨one 0x2c72, 1⟩, ⟨one 0x2c75, 1⟩, ⟨span 0x2c7e 0x2c7f, -10815⟩,
   ⟨alternate 0x2c80 0x2ce2, 1⟩, ⟨alternate 0x2ceb 0x2ced, 1⟩, ⟨one 0x2cf2, 1⟩,
   ⟨alternate 0xa640 0xa66c, 1⟩, ⟨alternate 0xa680 0xa69a, 1⟩, ⟨alternate 0xa722 0xa72e, 1⟩,
   ⟨alternate 0xa732 0xa76e, 1⟩, ⟨alternate 0xa779 0xa77b, 1⟩, ⟨one 0xa77d, -35332⟩,
   ⟨alternate 0xa77e 0xa786, 1⟩, ⟨one 0xa78b, 1⟩, ⟨one 0xa78d, -42280⟩,
   ⟨alternate 0xa790 0xa792, 1⟩, ⟨alternate 0xa796 0xa7a8, 1⟩, ⟨one 0xa7aa, -42308⟩,
   ⟨one 0xa7ab, -42319⟩, ⟨one 0xa7ac, -42315⟩, ⟨one 0xa7ad, -42305⟩, ⟨one 0xa7ae, -42308⟩,
   ⟨one 0xa7b0, -42258⟩, ⟨one 0xa7b1, -42282⟩, ⟨one 0xa7b2, -42261⟩, ⟨one 0xa7b3, 928⟩,
   ⟨alternate 0xa7b4 0xa7c2, 1⟩, ⟨one 0xa7c4, -48⟩, ⟨one 0xa7c5, -42307⟩, ⟨one 0xa7c6, -35384⟩,
   ⟨alternate 0xa7c7 0xa7c9, 1⟩, ⟨one 0xa7cb, -42343⟩, ⟨alternate 0xa7cc 0xa7da, 1⟩,
   ⟨one 0xa7dc, -42561⟩, ⟨one 0xa7f5, 1⟩, ⟨span 0xff21 0xff3a, 32⟩, ⟨span 0x10400 0x10427, 40⟩,
   ⟨span 0x104b0 0x104d3, 40⟩, ⟨span 0x10570 0x1057a, 39⟩, ⟨span 0x1057c 0x1058a, 39⟩,
   ⟨span 0x1058c 0x10592, 39⟩, ⟨span 0x10594 0x10595, 39⟩, ⟨span 0x10c80 0x10cb2, 64⟩,
   ⟨span 0x10d50 0x10d65, 32⟩, ⟨span 0x118a0 0x118bf, 32⟩, ⟨span 0x16e40 0x16e5f, 32⟩,
   ⟨span 0x16ea0 0x16eb8, 27⟩, ⟨span 0x1e900 0x1e921, 34⟩]

/-- Characters with one character as their upper case. -/
def upperShifts : List Shift :=
  [⟨span 0x61 0x7a, -32⟩, ⟨one 0xb5, 743⟩, ⟨span 0xe0 0xf6, -32⟩, ⟨span 0xf8 0xfe, -32⟩,
   ⟨one 0xff, 121⟩, ⟨alternate 0x101 0x12f, -1⟩, ⟨one 0x131, -232⟩, ⟨alternate 0x133 0x137, -1⟩,
   ⟨alternate 0x13a 0x148, -1⟩, ⟨alternate 0x14b 0x177, -1⟩, ⟨alternate 0x17a 0x17e, -1⟩,
   ⟨one 0x17f, -300⟩, ⟨one 0x180, 195⟩, ⟨alternate 0x183 0x185, -1⟩, ⟨one 0x188, -1⟩,
   ⟨one 0x18c, -1⟩, ⟨one 0x192, -1⟩, ⟨one 0x195, 97⟩, ⟨one 0x199, -1⟩, ⟨one 0x19a, 163⟩,
   ⟨one 0x19b, 42561⟩, ⟨one 0x19e, 130⟩, ⟨alternate 0x1a1 0x1a5, -1⟩, ⟨one 0x1a8, -1⟩,
   ⟨one 0x1ad, -1⟩, ⟨one 0x1b0, -1⟩, ⟨alternate 0x1b4 0x1b6, -1⟩, ⟨one 0x1b9, -1⟩,
   ⟨one 0x1bd, -1⟩, ⟨one 0x1bf, 56⟩, ⟨one 0x1c5, -1⟩, ⟨one 0x1c6, -2⟩, ⟨one 0x1c8, -1⟩,
   ⟨one 0x1c9, -2⟩, ⟨one 0x1cb, -1⟩, ⟨one 0x1cc, -2⟩, ⟨alternate 0x1ce 0x1dc, -1⟩,
   ⟨one 0x1dd, -79⟩, ⟨alternate 0x1df 0x1ef, -1⟩, ⟨one 0x1f2, -1⟩, ⟨one 0x1f3, -2⟩,
   ⟨one 0x1f5, -1⟩, ⟨alternate 0x1f9 0x21f, -1⟩, ⟨alternate 0x223 0x233, -1⟩, ⟨one 0x23c, -1⟩,
   ⟨span 0x23f 0x240, 10815⟩, ⟨one 0x242, -1⟩, ⟨alternate 0x247 0x24f, -1⟩, ⟨one 0x250, 10783⟩,
   ⟨one 0x251, 10780⟩, ⟨one 0x252, 10782⟩, ⟨one 0x253, -210⟩, ⟨one 0x254, -206⟩,
   ⟨span 0x256 0x257, -205⟩, ⟨one 0x259, -202⟩, ⟨one 0x25b, -203⟩, ⟨one 0x25c, 42319⟩,
   ⟨one 0x260, -205⟩, ⟨one 0x261, 42315⟩, ⟨one 0x263, -207⟩, ⟨one 0x264, 42343⟩,
   ⟨one 0x265, 42280⟩, ⟨one 0x266, 42308⟩, ⟨one 0x268, -209⟩, ⟨one 0x269, -211⟩,
   ⟨one 0x26a, 42308⟩, ⟨one 0x26b, 10743⟩, ⟨one 0x26c, 42305⟩, ⟨one 0x26f, -211⟩,
   ⟨one 0x271, 10749⟩, ⟨one 0x272, -213⟩, ⟨one 0x275, -214⟩, ⟨one 0x27d, 10727⟩,
   ⟨one 0x280, -218⟩, ⟨one 0x282, 42307⟩, ⟨one 0x283, -218⟩, ⟨one 0x287, 42282⟩,
   ⟨one 0x288, -218⟩, ⟨one 0x289, -69⟩, ⟨span 0x28a 0x28b, -217⟩, ⟨one 0x28c, -71⟩,
   ⟨one 0x292, -219⟩, ⟨one 0x29d, 42261⟩, ⟨one 0x29e, 42258⟩, ⟨one 0x345, 84⟩,
   ⟨alternate 0x371 0x373, -1⟩, ⟨one 0x377, -1⟩, ⟨span 0x37b 0x37d, 130⟩, ⟨one 0x3ac, -38⟩,
   ⟨span 0x3ad 0x3af, -37⟩, ⟨span 0x3b1 0x3c1, -32⟩, ⟨one 0x3c2, -31⟩, ⟨span 0x3c3 0x3cb, -32⟩,
   ⟨one 0x3cc, -64⟩, ⟨span 0x3cd 0x3ce, -63⟩, ⟨one 0x3d0, -62⟩, ⟨one 0x3d1, -57⟩,
   ⟨one 0x3d5, -47⟩, ⟨one 0x3d6, -54⟩, ⟨one 0x3d7, -8⟩, ⟨alternate 0x3d9 0x3ef, -1⟩,
   ⟨one 0x3f0, -86⟩, ⟨one 0x3f1, -80⟩, ⟨one 0x3f2, 7⟩, ⟨one 0x3f3, -116⟩, ⟨one 0x3f5, -96⟩,
   ⟨one 0x3f8, -1⟩, ⟨one 0x3fb, -1⟩, ⟨span 0x430 0x44f, -32⟩, ⟨span 0x450 0x45f, -80⟩,
   ⟨alternate 0x461 0x481, -1⟩, ⟨alternate 0x48b 0x4bf, -1⟩, ⟨alternate 0x4c2 0x4ce, -1⟩,
   ⟨one 0x4cf, -15⟩, ⟨alternate 0x4d1 0x52f, -1⟩, ⟨span 0x561 0x586, -48⟩,
   ⟨span 0x10d0 0x10fa, 3008⟩, ⟨span 0x10fd 0x10ff, 3008⟩, ⟨span 0x13f8 0x13fd, -8⟩,
   ⟨one 0x1c80, -6254⟩, ⟨one 0x1c81, -6253⟩, ⟨one 0x1c82, -6244⟩, ⟨span 0x1c83 0x1c84, -6242⟩,
   ⟨one 0x1c85, -6243⟩, ⟨one 0x1c86, -6236⟩, ⟨one 0x1c87, -6181⟩, ⟨one 0x1c88, 35266⟩,
   ⟨one 0x1c8a, -1⟩, ⟨one 0x1d79, 35332⟩, ⟨one 0x1d7d, 3814⟩, ⟨one 0x1d8e, 35384⟩,
   ⟨alternate 0x1e01 0x1e95, -1⟩, ⟨one 0x1e9b, -59⟩, ⟨alternate 0x1ea1 0x1eff, -1⟩,
   ⟨span 0x1f00 0x1f07, 8⟩, ⟨span 0x1f10 0x1f15, 8⟩, ⟨span 0x1f20 0x1f27, 8⟩,
   ⟨span 0x1f30 0x1f37, 8⟩, ⟨span 0x1f40 0x1f45, 8⟩, ⟨alternate 0x1f51 0x1f57, 8⟩,
   ⟨span 0x1f60 0x1f67, 8⟩, ⟨span 0x1f70 0x1f71, 74⟩, ⟨span 0x1f72 0x1f75, 86⟩,
   ⟨span 0x1f76 0x1f77, 100⟩, ⟨span 0x1f78 0x1f79, 128⟩, ⟨span 0x1f7a 0x1f7b, 112⟩,
   ⟨span 0x1f7c 0x1f7d, 126⟩, ⟨span 0x1fb0 0x1fb1, 8⟩, ⟨one 0x1fbe, -7205⟩,
   ⟨span 0x1fd0 0x1fd1, 8⟩, ⟨span 0x1fe0 0x1fe1, 8⟩, ⟨one 0x1fe5, 7⟩, ⟨one 0x214e, -28⟩,
   ⟨span 0x2170 0x217f, -16⟩, ⟨one 0x2184, -1⟩, ⟨span 0x24d0 0x24e9, -26⟩,
   ⟨span 0x2c30 0x2c5f, -48⟩, ⟨one 0x2c61, -1⟩, ⟨one 0x2c65, -10795⟩, ⟨one 0x2c66, -10792⟩,
   ⟨alternate 0x2c68 0x2c6c, -1⟩, ⟨one 0x2c73, -1⟩, ⟨one 0x2c76, -1⟩,
   ⟨alternate 0x2c81 0x2ce3, -1⟩, ⟨alternate 0x2cec 0x2cee, -1⟩, ⟨one 0x2cf3, -1⟩,
   ⟨span 0x2d00 0x2d25, -7264⟩, ⟨one 0x2d27, -7264⟩, ⟨one 0x2d2d, -7264⟩,
   ⟨alternate 0xa641 0xa66d, -1⟩, ⟨alternate 0xa681 0xa69b, -1⟩, ⟨alternate 0xa723 0xa72f, -1⟩,
   ⟨alternate 0xa733 0xa76f, -1⟩, ⟨alternate 0xa77a 0xa77c, -1⟩, ⟨alternate 0xa77f 0xa787, -1⟩,
   ⟨one 0xa78c, -1⟩, ⟨alternate 0xa791 0xa793, -1⟩, ⟨one 0xa794, 48⟩,
   ⟨alternate 0xa797 0xa7a9, -1⟩, ⟨alternate 0xa7b5 0xa7c3, -1⟩, ⟨alternate 0xa7c8 0xa7ca, -1⟩,
   ⟨alternate 0xa7cd 0xa7db, -1⟩, ⟨one 0xa7f6, -1⟩, ⟨one 0xab53, -928⟩,
   ⟨span 0xab70 0xabbf, -38864⟩, ⟨span 0xff41 0xff5a, -32⟩, ⟨span 0x10428 0x1044f, -40⟩,
   ⟨span 0x104d8 0x104fb, -40⟩, ⟨span 0x10597 0x105a1, -39⟩, ⟨span 0x105a3 0x105b1, -39⟩,
   ⟨span 0x105b3 0x105b9, -39⟩, ⟨span 0x105bb 0x105bc, -39⟩, ⟨span 0x10cc0 0x10cf2, -64⟩,
   ⟨span 0x10d70 0x10d85, -32⟩, ⟨span 0x118c0 0x118df, -32⟩, ⟨span 0x16e60 0x16e7f, -32⟩,
   ⟨span 0x16ebb 0x16ed3, -27⟩, ⟨span 0x1e922 0x1e943, -34⟩]

/-- Characters with several characters as their upper case. -/
def upperExpansions : List (Nat × List Nat) :=
  [(0xdf, [0x53, 0x53]), (0x149, [0x2bc, 0x4e]), (0x1f0, [0x4a, 0x30c]),
   (0x390, [0x399, 0x308, 0x301]), (0x3b0, [0x3a5, 0x308, 0x301]), (0x587, [0x535, 0x552]),
   (0x1e96, [0x48, 0x331]), (0x1e97, [0x54, 0x308]), (0x1e98, [0x57, 0x30a]),
   (0x1e99, [0x59, 0x30a]), (0x1e9a, [0x41, 0x2be]), (0x1f50, [0x3a5, 0x313]),
   (0x1f52, [0x3a5, 0x313, 0x300]), (0x1f54, [0x3a5, 0x313, 0x301]),
   (0x1f56, [0x3a5, 0x313, 0x342]), (0x1f80, [0x1f08, 0x399]), (0x1f81, [0x1f09, 0x399]),
   (0x1f82, [0x1f0a, 0x399]), (0x1f83, [0x1f0b, 0x399]), (0x1f84, [0x1f0c, 0x399]),
   (0x1f85, [0x1f0d, 0x399]), (0x1f86, [0x1f0e, 0x399]), (0x1f87, [0x1f0f, 0x399]),
   (0x1f88, [0x1f08, 0x399]), (0x1f89, [0x1f09, 0x399]), (0x1f8a, [0x1f0a, 0x399]),
   (0x1f8b, [0x1f0b, 0x399]), (0x1f8c, [0x1f0c, 0x399]), (0x1f8d, [0x1f0d, 0x399]),
   (0x1f8e, [0x1f0e, 0x399]), (0x1f8f, [0x1f0f, 0x399]), (0x1f90, [0x1f28, 0x399]),
   (0x1f91, [0x1f29, 0x399]), (0x1f92, [0x1f2a, 0x399]), (0x1f93, [0x1f2b, 0x399]),
   (0x1f94, [0x1f2c, 0x399]), (0x1f95, [0x1f2d, 0x399]), (0x1f96, [0x1f2e, 0x399]),
   (0x1f97, [0x1f2f, 0x399]), (0x1f98, [0x1f28, 0x399]), (0x1f99, [0x1f29, 0x399]),
   (0x1f9a, [0x1f2a, 0x399]), (0x1f9b, [0x1f2b, 0x399]), (0x1f9c, [0x1f2c, 0x399]),
   (0x1f9d, [0x1f2d, 0x399]), (0x1f9e, [0x1f2e, 0x399]), (0x1f9f, [0x1f2f, 0x399]),
   (0x1fa0, [0x1f68, 0x399]), (0x1fa1, [0x1f69, 0x399]), (0x1fa2, [0x1f6a, 0x399]),
   (0x1fa3, [0x1f6b, 0x399]), (0x1fa4, [0x1f6c, 0x399]), (0x1fa5, [0x1f6d, 0x399]),
   (0x1fa6, [0x1f6e, 0x399]), (0x1fa7, [0x1f6f, 0x399]), (0x1fa8, [0x1f68, 0x399]),
   (0x1fa9, [0x1f69, 0x399]), (0x1faa, [0x1f6a, 0x399]), (0x1fab, [0x1f6b, 0x399]),
   (0x1fac, [0x1f6c, 0x399]), (0x1fad, [0x1f6d, 0x399]), (0x1fae, [0x1f6e, 0x399]),
   (0x1faf, [0x1f6f, 0x399]), (0x1fb2, [0x1fba, 0x399]), (0x1fb3, [0x391, 0x399]),
   (0x1fb4, [0x386, 0x399]), (0x1fb6, [0x391, 0x342]), (0x1fb7, [0x391, 0x342, 0x399]),
   (0x1fbc, [0x391, 0x399]), (0x1fc2, [0x1fca, 0x399]), (0x1fc3, [0x397, 0x399]),
   (0x1fc4, [0x389, 0x399]), (0x1fc6, [0x397, 0x342]), (0x1fc7, [0x397, 0x342, 0x399]),
   (0x1fcc, [0x397, 0x399]), (0x1fd2, [0x399, 0x308, 0x300]), (0x1fd3, [0x399, 0x308, 0x301]),
   (0x1fd6, [0x399, 0x342]), (0x1fd7, [0x399, 0x308, 0x342]), (0x1fe2, [0x3a5, 0x308, 0x300]),
   (0x1fe3, [0x3a5, 0x308, 0x301]), (0x1fe4, [0x3a1, 0x313]), (0x1fe6, [0x3a5, 0x342]),
   (0x1fe7, [0x3a5, 0x308, 0x342]), (0x1ff2, [0x1ffa, 0x399]), (0x1ff3, [0x3a9, 0x399]),
   (0x1ff4, [0x38f, 0x399]), (0x1ff6, [0x3a9, 0x342]), (0x1ff7, [0x3a9, 0x342, 0x399]),
   (0x1ffc, [0x3a9, 0x399]), (0xfb00, [0x46, 0x46]), (0xfb01, [0x46, 0x49]),
   (0xfb02, [0x46, 0x4c]), (0xfb03, [0x46, 0x46, 0x49]), (0xfb04, [0x46, 0x46, 0x4c]),
   (0xfb05, [0x53, 0x54]), (0xfb06, [0x53, 0x54]), (0xfb13, [0x544, 0x546]),
   (0xfb14, [0x544, 0x535]), (0xfb15, [0x544, 0x53b]), (0xfb16, [0x54e, 0x546]),
   (0xfb17, [0x544, 0x53d])]

/-- Characters with several characters as their lower case: the dotted capital i. -/
def lowerExpansions : List (Nat × List Nat) :=
  [(0x130, [0x69, 0x307])]

/-- A character's expansion if it has one, else the character moved by its shift. -/
def mapCase (expansions : List (Nat × List Nat)) (shifts : List Shift) (c : Char) : Text :=
  match expansions.lookup c.toNat with
  | some ns => ns.map Char.ofNat
  | none => [Char.ofNat (shift shifts c.toNat)]

/-- The lower case of one character on its own. -/
def lowerChar (c : Char) : Text := mapCase lowerExpansions lowerShifts c

/-- The upper case of one character on its own. -/
def upperChar (c : Char) : Text := mapCase upperExpansions upperShifts c

/-- The general category Lt. -/
def titlecaseRuns : List Run :=
  [one 0x1c5, one 0x1c8, one 0x1cb, one 0x1f2, span 0x1f88 0x1f8f, span 0x1f98 0x1f9f,
   span 0x1fa8 0x1faf, one 0x1fbc, one 0x1fcc, one 0x1ffc]

/-- Characters that do not separate a sigma from the letters of its word (property
Case_Ignorable). -/
def caseIgnorableRuns : List Run :=
  [one 0x27, one 0x2e, one 0x3a, alternate 0x5e 0x60, one 0xa8, alternate 0xad 0xaf, one 0xb4,
   span 0xb7 0xb8, span 0x2b0 0x36f, span 0x374 0x375, one 0x37a, span 0x384 0x385, one 0x387,
   span 0x483 0x489, one 0x559, one 0x55f, span 0x591 0x5bd, one 0x5bf, span 0x5c1 0x5c2,
   span 0x5c4 0x5c5, one 0x5c7, one 0x5f4, span 0x600 0x605, span 0x610 0x61a, one 0x61c,
   one 0x640, span 0x64b 0x65f, one 0x670, span 0x6d6 0x6dd, span 0x6df 0x6e8, span 0x6ea 0x6ed,
   alternate 0x70f 0x711, span 0x730 0x74a, span 0x7a6 0x7b0, span 0x7eb 0x7f5, one 0x7fa,
   one 0x7fd, span 0x816 0x82d, span 0x859 0x85b, one 0x888, span 0x890 0x891, span 0x897 0x89f,
   span 0x8c9 0x902, alternate 0x93a 0x93c, span 0x941 0x948, one 0x94d, span 0x951 0x957,
   span 0x962 0x963, one 0x971, one 0x981, one 0x9bc, span 0x9c1 0x9c4, one 0x9cd,
   span 0x9e2 0x9e3, one 0x9fe, span 0xa01 0xa02, one 0xa3c, span 0xa41 0xa42, span 0xa47 0xa48,
   span 0xa4b 0xa4d, one 0xa51, span 0xa70 0xa71, one 0xa75, span 0xa81 0xa82, one 0xabc,
   span 0xac1 0xac5, span 0xac7 0xac8, one 0xacd, span 0xae2 0xae3, span 0xafa 0xaff, one 0xb01,
   one 0xb3c, one 0xb3f, span 0xb41 0xb44, one 0xb4d, span 0xb55 0xb56, span 0xb62 0xb63,
   one 0xb82, one 0xbc0, one 0xbcd, one 0xc00, one 0xc04, one 0xc3c, span 0xc3e 0xc40,
   span 0xc46 0xc48, span 0xc4a 0xc4d, span 0xc55 0xc56, span 0xc62 0xc63, one 0xc81, one 0xcbc,
   one 0xcbf, one 0xcc6, span 0xccc 0xccd, span 0xce2 0xce3, span 0xd00 0xd01, span 0xd3b 0xd3c,
   span 0xd41 0xd44, one 0xd4d, span 0xd62 0xd63, one 0xd81, one 0xdca, span 0xdd2 0xdd4,
   one 0xdd6, one 0xe31, span 0xe34 0xe3a, span 0xe46 0xe4e, one 0xeb1, span 0xeb4 0xebc,
   one 0xec6, span 0xec8 0xece, span 0xf18 0xf19, alternate 0xf35 0xf39, span 0xf71 0xf7e,
   span 0xf80 0xf84, span 0xf86 0xf87, span 0xf8d 0xf97, span 0xf99 0xfbc, one 0xfc6,
   span 0x102d 0x1030, span 0x1032 0x1037, span 0x1039 0x103a, span 0x103d 0x103e,
   span 0x1058 0x1059, span 0x105e 0x1060, span 0x1071 0x1074, one 0x1082, span 0x1085 0x1086,
   one 0x108d, one 0x109d, one 0x10fc, span 0x135d 0x135f, span 0x1712 0x1714, span 0x1732 0x1733,
   span 0x1752 0x1753, span 0x1772 0x1773, span 0x17b4 0x17b5, span 0x17b7 0x17bd, one 0x17c6,
   span 0x17c9 0x17d3, one 0x17d7, one 0x17dd, span 0x180b 0x180f, one 0x1843, span 0x1885 0x1886,
   one 0x18a9, span 0x1920 0x1922, span 0x1927 0x1928, one 0x1932, span 0x1939 0x193b,
   span 0x1a17 0x1a18, one 0x1a1b, one 0x1a56, span 0x1a58 0x1a5e, alternate 0x1a60 0x1a62,
   span 0x1a65 0x1a6c, span 0x1a73 0x1a7c, one 0x1a7f, one 0x1aa7, span 0x1ab0 0x1add,
   span 0x1ae0 0x1aeb, span 0x1b00 0x1b03, one 0x1b34, span 0x1b36 0x1b3a, one 0x1b3c, one 0x1b42,
   span 0x1b6b 0x1b73, span 0x1b80 0x1b81, span 0x1ba2 0x1ba5, span 0x1ba8 0x1ba9,
   span 0x1bab 0x1bad, one 0x1be6, span 0x1be8 0x1be9, one 0x1bed, span 0x1bef 0x1bf1,
   span 0x1c2c 0x1c33, span 0x1c36 0x1c37, span 0x1c78 0x1c7d, span 0x1cd0 0x1cd2,
   span 0x1cd4 0x1ce0, span 0x1ce2 0x1ce8, one 0x1ced, one 0x1cf4, span 0x1cf8 0x1cf9,
   span 0x1d2c 0x1d6a, one 0x1d78, span 0x1d9b 0x1dff, one 0x1fbd, span 0x1fbf 0x1fc1,
   span 0x1fcd 0x1fcf, span 0x1fdd 0x1fdf, span 0x1fed 0x1fef, span 0x1ffd 0x1ffe,
   span 0x200b 0x200f, span 0x2018 0x2019, one 0x2024, one 0x2027, span 0x202a 0x202e,
   span 0x2060 0x2064, span 0x2066 0x206f, one 0x2071, one 0x207f, span 0x2090 0x209c,
   span 0x20d0 0x20f0, span 0x2c7c 0x2c7d, span 0x2cef 0x2cf1, one 0x2d6f, one 0x2d7f,
   span 0x2de0 0x2dff, one 0x2e2f, one 0x3005, span 0x302a 0x302d, span 0x3031 0x3035, one 0x303b,
   span 0x3099 0x309e, span 0x30fc 0x30fe, one 0xa015, span 0xa4f8 0xa4fd, one 0xa60c,
   span 0xa66f 0xa672, span 0xa674 0xa67d, one 0xa67f, span 0xa69c 0xa69f, span 0xa6f0 0xa6f1,
   span 0xa700 0xa721, one 0xa770, span 0xa788 0xa78a, span 0xa7f1 0xa7f4, span 0xa7f8 0xa7f9,
   one 0xa802, one 0xa806, one 0xa80b, span 0xa825 0xa826, one 0xa82c, span 0xa8c4 0xa8c5,
   span 0xa8e0 0xa8f1, one 0xa8ff, span 0xa926 0xa92d, span 0xa947 0xa951, span 0xa980 0xa982,
   one 0xa9b3, span 0xa9b6 0xa9b9, span 0xa9bc 0xa9bd, one 0xa9cf, span 0xa9e5 0xa9e6,
   span 0xaa29 0xaa2e, span 0xaa31 0xaa32, span 0xaa35 0xaa36, one 0xaa43, one 0xaa4c, one 0xaa70,
   one 0xaa7c, one 0xaab0, span 0xaab2 0xaab4, span 0xaab7 0xaab8, span 0xaabe 0xaabf, one 0xaac1,
   one 0xaadd, span 0xaaec 0xaaed, span 0xaaf3 0xaaf4, one 0xaaf6, span 0xab5b 0xab5f,
   span 0xab69 0xab6b, one 0xabe5, one 0xabe8, one 0xabed, one 0xfb1e, span 0xfbb2 0xfbc2,
   span 0xfe00 0xfe0f, one 0xfe13, span 0xfe20 0xfe2f, one 0xfe52, one 0xfe55, one 0xfeff,
   one 0xff07, one 0xff0e, one 0xff1a, alternate 0xff3e 0xff40, one 0xff70, span 0xff9e 0xff9f,
   one 0xffe3, span 0xfff9 0xfffb, one 0x101fd, one 0x102e0, span 0x10376 0x1037a,
   span 0x10780 0x10785, span 0x10787 0x107b0, span 0x107b2 0x107ba, span 0x10a01 0x10a03,
   span 0x10a05 0x10a06, span 0x10a0c 0x10a0f, span 0x10a38 0x10a3a, one 0x10a3f,
   span 0x10ae5 0x10ae6, span 0x10d24 0x10d27, one 0x10d4e, span 0x10d69 0x10d6d, one 0x10d6f,
   span 0x10eab 0x10eac, one 0x10ec5, span 0x10efa 0x10eff, span 0x10f46 0x10f50,
   span 0x10f82 0x10f85, one 0x11001, span 0x11038 0x11046, one 0x11070, span 0x11073 0x11074,
   span 0x1107f 0x11081, span 0x110b3 0x110b6, span 0x110b9 0x110ba, one 0x110bd, one 0x110c2,
   one 0x110cd, span 0x11100 0x11102, span 0x11127 0x1112b, span 0x1112d 0x11134, one 0x11173,
   span 0x11180 0x11181, span 0x111b6 0x111be, span 0x111c9 0x111cc, one 0x111cf,
   span 0x1122f 0x11231, one 0x11234, span 0x11236 0x11237, one 0x1123e, one 0x11241, one 0x112df,
   span 0x112e3 0x112ea, span 0x11300 0x11301, span 0x1133b 0x1133c, one 0x11340,
   span 0x11366 0x1136c, span 0x11370 0x11374, span 0x113bb 0x113c0, alternate 0x113ce 0x113d2,
   span 0x113e1 0x113e2, span 0x11438 0x1143f, span 0x11442 0x11444, one 0x11446, one 0x1145e,
   span 0x114b3 0x114b8, one 0x114ba, span 0x114bf 0x114c0, span 0x114c2 0x114c3,
   span 0x115b2 0x115b5, span 0x115bc 0x115bd, span 0x115bf 0x115c0, span 0x115dc 0x115dd,
   span 0x11633 0x1163a, one 0x1163d, span 0x1163f 0x11640, alternate 0x116ab 0x116ad,
   span 0x116b0 0x116b5, one 0x116b7, alternate 0x1171d 0x1171f, span 0x11722 0x11725,
   span 0x11727 0x1172b, span 0x1182f 0x11837, span 0x11839 0x1183a, span 0x1193b 0x1193c,
   one 0x1193e, one 0x11943, span 0x119d4 0x119d7, span 0x119da 0x119db, one 0x119e0,
   span 0x11a01 0x11a0a, span 0x11a33 0x11a38, span 0x11a3b 0x11a3e, one 0x11a47,
   span 0x11a51 0x11a56, span 0x11a59 0x11a5b, span 0x11a8a 0x11a96, span 0x11a98 0x11a99,
   one 0x11b60, span 0x11b62 0x11b64, one 0x11b66, span 0x11c30 0x11c36, span 0x11c38 0x11c3d,
   one 0x11c3f, span 0x11c92 0x11ca7, span 0x11caa 0x11cb0, span 0x11cb2 0x11cb3,
   span 0x11cb5 0x11cb6, span 0x11d31 0x11d36, one 0x11d3a, span 0x11d3c 0x11d3d,
   span 0x11d3f 0x11d45, one 0x11d47, span 0x11d90 0x11d91, alternate 0x11d95 0x11d97,
   one 0x11dd9, span 0x11ef3 0x11ef4, span 0x11f00 0x11f01, span 0x11f36 0x11f3a,
   alternate 0x11f40 0x11f42, one 0x11f5a, span 0x13430 0x13440, span 0x13447 0x13455,
   span 0x1611e 0x16129, span 0x1612d 0x1612f, span 0x16af0 0x16af4, span 0x16b30 0x16b36,
   span 0x16b40 0x16b43, span 0x16d40 0x16d42, span 0x16d6b 0x16d6c, one 0x16f4f,
   span 0x16f8f 0x16f9f, span 0x16fe0 0x16fe1, span 0x16fe3 0x16fe4, span 0x16ff2 0x16ff3,
   span 0x1aff0 0x1aff3, span 0x1aff5 0x1affb, span 0x1affd 0x1affe, span 0x1bc9d 0x1bc9e,
   span 0x1bca0 0x1bca3, span 0x1cf00 0x1cf2d, span 0x1cf30 0x1cf46, span 0x1d167 0x1d169,
   span 0x1d173 0x1d182, span 0x1d185 0x1d18b, span 0x1d1aa 0x1d1ad, span 0x1d242 0x1d244,
   span 0x1da00 0x1da36, span 0x1da3b 0x1da6c, one 0x1da75, one 0x1da84, span 0x1da9b 0x1da9f,
   span 0x1daa1 0x1daaf, span 0x1e000 0x1e006, span 0x1e008 0x1e018, span 0x1e01b 0x1e021,
   span 0x1e023 0x1e024, span 0x1e026 0x1e02a, span 0x1e030 0x1e06d, one 0x1e08f,
   span 0x1e130 0x1e13d, one 0x1e2ae, span 0x1e2ec 0x1e2ef, span 0x1e4eb 0x1e4ef,
   span 0x1e5ee 0x1e5ef, one 0x1e6e3, one 0x1e6e6, span 0x1e6ee 0x1e6ef, one 0x1e6f5, one 0x1e6ff,
   span 0x1e8d0 0x1e8d6, span 0x1e944 0x1e94b, span 0x1f3fb 0x1f3ff, one 0xe0001,
   span 0xe0020 0xe007f, span 0xe0100 0xe01ef]

/-- Letters that come in cases (property Cased). -/
def isCased (c : Char) : Bool :=
  isLowercase c || isUppercase c || covers titlecaseRuns c.toNat

def isCaseIgnorable (c : Char) : Bool := covers caseIgnorableRuns c.toNat

/-- Whether a cased letter comes next, case-ignorable characters aside. -/
def casedNext (t : Text) : Bool :=
  match t.dropWhile isCaseIgnorable with
  | [] => false
  | c :: _ => isCased c

/-- A capital sigma in lower case: final at the end of a word of at least two letters. `seen` is
what precedes it, nearest character first. -/
def lowerSigma (seen rest : Text) : Char :=
  if casedNext seen && !casedNext rest then '\u03c2' else '\u03c3'

/-- The lower case of what follows `seen`, which is kept with its nearest character first. -/
def lowerAfter : (seen t : Text) → Text
  | _, [] => []
  | seen, c :: t =>
    (if c = '\u03a3' then [lowerSigma seen t] else lowerChar c) ++ lowerAfter (c :: seen) t

/-- The lower case of a whole text. -/
def lower (t : Text) : Text := lowerAfter [] t

end InterfaceGen.Text
