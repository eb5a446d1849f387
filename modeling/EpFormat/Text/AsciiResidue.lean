import EpFormat.Text.Ranges

/-!
# AsciiResidue — what is left of a character in ASCII

A character is taken apart by compatibility decomposition (Unicode 14), and of its parts those in ASCII are kept:
an accented letter leaves the letter, a ligature its letters, a full-width form its plain form.  A run
`(first, last, step, text)` gives `text` to its first character; with step 1 the one character of `text` moves on
with the code point, with step 0 it stays.
-/
namespace EpFormat

def residueRunsFirst : List (Nat × Nat × Nat × String) :=
  [
   (160, 160, 1, " "), (168, 168, 1, " "), (170, 170, 1, "a"), (175, 175, 1, " "), (178, 179, 1, "2"), (180, 180, 1, " "),
   (184, 184, 1, " "), (185, 185, 1, "1"), (186, 186, 1, "o"), (188, 188, 1, "14"), (189, 189, 1, "12"), (190, 190, 1, "34"),
   (192, 197, 0, "A"), (199, 199, 1, "C"), (200, 203, 0, "E"), (204, 207, 0, "I"), (209, 210, 1, "N"), (211, 214, 0, "O"),
   (217, 220, 0, "U"), (221, 221, 1, "Y"), (224, 229, 0, "a"), (231, 231, 1, "c"), (232, 235, 0, "e"), (236, 239, 0, "i"),
   (241, 242, 1, "n"), (243, 246, 0, "o"), (249, 252, 0, "u"), (253, 253, 1, "y"), (255, 255, 1, "y"), (256, 256, 1, "A"),
   (257, 257, 1, "a"), (258, 258, 1, "A"), (259, 259, 1, "a"), (260, 260, 1, "A"), (261, 261, 1, "a"), (262, 262, 1, "C"),
   (263, 263, 1, "c"), (264, 264, 1, "C"), (265, 265, 1, "c"), (266, 266, 1, "C"), (267, 267, 1, "c"), (268, 268, 1, "C"),
   (269, 269, 1, "c"), (270, 270, 1, "D"), (271, 271, 1, "d"), (274, 274, 1, "E"), (275, 275, 1, "e"), (276, 276, 1, "E"),
   (277, 277, 1, "e"), (278, 278, 1, "E"), (279, 279, 1, "e"), (280, 280, 1, "E"), (281, 281, 1, "e"), (282, 282, 1, "E"),
   (283, 283, 1, "e"), (284, 284, 1, "G"), (285, 285, 1, "g"), (286, 286, 1, "G"), (287, 287, 1, "g"), (288, 288, 1, "G"),
   (289, 289, 1, "g"), (290, 290, 1, "G"), (291, 291, 1, "g"), (292, 292, 1, "H"), (293, 293, 1, "h"), (296, 296, 1, "I"),
   (297, 297, 1, "i"), (298, 298, 1, "I"), (299, 299, 1, "i"), (300, 300, 1, "I"), (301, 301, 1, "i"), (302, 302, 1, "I"),
   (303, 303, 1, "i"), (304, 304, 1, "I"), (306, 306, 1, "IJ"), (307, 307, 1, "ij"), (308, 308, 1, "J"), (309, 309, 1, "j"),
   (310, 310, 1, "K"), (311, 311, 1, "k"), (313, 313, 1, "L"), (314, 314, 1, "l"), (315, 315, 1, "L"), (316, 316, 1, "l"),
   (317, 317, 1, "L"), (318, 318, 1, "l"), (319, 319, 1, "L"), (320, 320, 1, "l"), (323, 323, 1, "N"), (324, 324, 1, "n"),
   (325, 325, 1, "N"), (326, 326, 1, "n"), (327, 327, 1, "N"), (328, 329, 0, "n"), (332, 332, 1, "O"), (333, 333, 1, "o"),
   (334, 334, 1, "O"), (335, 335, 1, "o"), (336, 336, 1, "O"), (337, 337, 1, "o"), (340, 340, 1, "R"), (341, 341, 1, "r"),
   (342, 342, 1, "R"), (343, 343, 1, "r"), (344, 344, 1, "R"), (345, 345, 1, "r"), (346, 346, 1, "S"), (347, 347, 1, "s"),
   (348, 348, 1, "S"), (349, 349, 1, "s"), (350, 350, 1, "S"), (351, 351, 1, "s"), (352, 352, 1, "S"), (353, 353, 1, "s"),
   (354, 354, 1, "T"), (355, 355, 1, "t"), (356, 356, 1, "T"), (357, 357, 1, "t"), (360, 360, 1, "U"), (361, 361, 1, "u"),
   (362, 362, 1, "U"), (363, 363, 1, "u"), (364, 364, 1, "U"), (365, 365, 1, "u"), (366, 366, 1, "U"), (367, 367, 1, "u"),
   (368, 368, 1, "U"), (369, 369, 1, "u"), (370, 370, 1, "U"), (371, 371, 1, "u"), (372, 372, 1, "W"), (373, 373, 1, "w"),
   (374, 374, 1, "Y"), (375, 375, 1, "y"), (376, 377, 1, "Y"), (378, 378, 1, "z"), (379, 379, 1, "Z"), (380, 380, 1, "z"),
   (381, 381, 1, "Z"), (382, 382, 1, "z"), (383, 383, 1, "s"), (416, 416, 1, "O"), (417, 417, 1, "o"), (431, 431, 1, "U"),
   (432, 432, 1, "u"), (452, 452, 1, "DZ"), (453, 453, 1, "Dz"), (454, 454, 1, "dz"), (455, 455, 1, "LJ"), (456, 456, 1, "Lj"),
   (457, 457, 1, "lj"), (458, 458, 1, "NJ"), (459, 459, 1, "Nj"), (460, 460, 1, "nj"), (461, 461, 1, "A"), (462, 462, 1, "a"),
   (463, 463, 1, "I"), (464, 464, 1, "i"), (465, 465, 1, "O"), (466, 466, 1, "o"), (467, 467, 1, "U"), (468, 468, 1, "u"),
   (469, 469, 1, "U"), (470, 470, 1, "u"), (471, 471, 1, "U"), (472, 472, 1, "u"), (473, 473, 1, "U"), (474, 474, 1, "u"),
   (475, 475, 1, "U"), (476, 476, 1, "u"), (478, 478, 1, "A"), (479, 479, 1, "a"), (480, 480, 1, "A"), (481, 481, 1, "a"),
   (486, 486, 1, "G"), (487, 487, 1, "g"), (488, 488, 1, "K"), (489, 489, 1, "k"), (490, 490, 1, "O"), (491, 491, 1, "o"),
   (492, 492, 1, "O"), (493, 493, 1, "o"), (496, 496, 1, "j"), (497, 497, 1, "DZ"), (498, 498, 1, "Dz"), (499, 499, 1, "dz"),
   (500, 500, 1, "G"), (501, 501, 1, "g"), (504, 504, 1, "N"), (505, 505, 1, "n"), (506, 506, 1, "A"), (507, 507, 1, "a"),
   (512, 512, 1, "A"), (513, 513, 1, "a"), (514, 514, 1, "A"), (515, 515, 1, "a"), (516, 516, 1, "E"), (517, 517, 1, "e"),
   (518, 518, 1, "E"), (519, 519, 1, "e")]

def residueRunsSecond : List (Nat × Nat × Nat × String) :=
  [
   (520, 520, 1, "I"), (521, 521, 1, "i"), (522, 522, 1, "I"), (523, 523, 1, "i"), (524, 524, 1, "O"), (525, 525, 1, "o"),
   (526, 526, 1, "O"), (527, 527, 1, "o"), (528, 528, 1, "R"), (529, 529, 1, "r"), (530, 530, 1, "R"), (531, 531, 1, "r"),
   (532, 532, 1, "U"), (533, 533, 1, "u"), (534, 534, 1, "U"), (535, 535, 1, "u"), (536, 536, 1, "S"), (537, 537, 1, "s"),
   (538, 538, 1, "T"), (539, 539, 1, "t"), (542, 542, 1, "H"), (543, 543, 1, "h"), (550, 550, 1, "A"), (551, 551, 1, "a"),
   (552, 552, 1, "E"), (553, 553, 1, "e"), (554, 554, 1, "O"), (555, 555, 1, "o"), (556, 556, 1, "O"), (557, 557, 1, "o"),
   (558, 558, 1, "O"), (559, 559, 1, "o"), (560, 560, 1, "O"), (561, 561, 1, "o"), (562, 562, 1, "Y"), (563, 563, 1, "y"),
   (688, 688, 1, "h"), (690, 690, 1, "j"), (691, 691, 1, "r"), (695, 695, 1, "w"), (696, 696, 1, "y"), (728, 733, 0, " "),
   (737, 737, 1, "l"), (738, 738, 1, "s"), (739, 739, 1, "x"), (890, 890, 1, " "), (894, 894, 1, ";"), (900, 901, 0, " "),
   (7468, 7468, 1, "A"), (7470, 7470, 1, "B"), (7472, 7473, 1, "D"), (7475, 7482, 1, "G"), (7484, 7484, 1, "O"), (7486, 7486, 1, "P"),
   (7487, 7487, 1, "R"), (7488, 7489, 1, "T"), (7490, 7490, 1, "W"), (7491, 7491, 1, "a"), (7495, 7495, 1, "b"), (7496, 7497, 1, "d"),
   (7501, 7501, 1, "g"), (7503, 7503, 1, "k"), (7504, 7504, 1, "m"), (7506, 7506, 1, "o"), (7510, 7510, 1, "p"), (7511, 7512, 1, "t"),
   (7515, 7515, 1, "v"), (7522, 7522, 1, "i"), (7523, 7523, 1, "r"), (7524, 7525, 1, "u"), (7580, 7580, 1, "c"), (7584, 7584, 1, "f"),
   (7611, 7611, 1, "z"), (7680, 7680, 1, "A"), (7681, 7681, 1, "a"), (7682, 7682, 1, "B"), (7683, 7683, 1, "b"), (7684, 7684, 1, "B"),
   (7685, 7685, 1, "b"), (7686, 7686, 1, "B"), (7687, 7687, 1, "b"), (7688, 7688, 1, "C"), (7689, 7689, 1, "c"), (7690, 7690, 1, "D"),
   (7691, 7691, 1, "d"), (7692, 7692, 1, "D"), (7693, 7693, 1, "d"), (7694, 7694, 1, "D"), (7695, 7695, 1, "d"), (7696, 7696, 1, "D"),
   (7697, 7697, 1, "d"), (7698, 7698, 1, "D"), (7699, 7699, 1, "d"), (7700, 7700, 1, "E"), (7701, 7701, 1, "e"), (7702, 7702, 1, "E"),
   (7703, 7703, 1, "e"), (7704, 7704, 1, "E"), (7705, 7705, 1, "e"), (7706, 7706, 1, "E"), (7707, 7707, 1, "e"), (7708, 7708, 1, "E"),
   (7709, 7709, 1, "e"), (7710, 7710, 1, "F"), (7711, 7711, 1, "f"), (7712, 7712, 1, "G"), (7713, 7713, 1, "g"), (7714, 7714, 1, "H"),
   (7715, 7715, 1, "h"), (7716, 7716, 1, "H"), (7717, 7717, 1, "h"), (7718, 7718, 1, "H"), (7719, 7719, 1, "h"), (7720, 7720, 1, "H"),
   (7721, 7721, 1, "h"), (7722, 7722, 1, "H"), (7723, 7723, 1, "h"), (7724, 7724, 1, "I"), (7725, 7725, 1, "i"), (7726, 7726, 1, "I"),
   (7727, 7727, 1, "i"), (7728, 7728, 1, "K"), (7729, 7729, 1, "k"), (7730, 7730, 1, "K"), (7731, 7731, 1, "k"), (7732, 7732, 1, "K"),
   (7733, 7733, 1, "k"), (7734, 7734, 1, "L"), (7735, 7735, 1, "l"), (7736, 7736, 1, "L"), (7737, 7737, 1, "l"), (7738, 7738, 1, "L"),
   (7739, 7739, 1, "l"), (7740, 7740, 1, "L"), (7741, 7741, 1, "l"), (7742, 7742, 1, "M"), (7743, 7743, 1, "m"), (7744, 7744, 1, "M"),
   (7745, 7745, 1, "m"), (7746, 7746, 1, "M"), (7747, 7747, 1, "m"), (7748, 7748, 1, "N"), (7749, 7749, 1, "n"), (7750, 7750, 1, "N"),
   (7751, 7751, 1, "n"), (7752, 7752, 1, "N"), (7753, 7753, 1, "n"), (7754, 7754, 1, "N"), (7755, 7755, 1, "n"), (7756, 7756, 1, "O"),
   (7757, 7757, 1, "o"), (7758, 7758, 1, "O"), (7759, 7759, 1, "o"), (7760, 7760, 1, "O"), (7761, 7761, 1, "o"), (7762, 7762, 1, "O"),
   (7763, 7763, 1, "o"), (7764, 7764, 1, "P"), (7765, 7765, 1, "p"), (7766, 7766, 1, "P"), (7767, 7767, 1, "p"), (7768, 7768, 1, "R"),
   (7769, 7769, 1, "r"), (7770, 7770, 1, "R"), (7771, 7771, 1, "r"), (7772, 7772, 1, "R"), (7773, 7773, 1, "r"), (7774, 7774, 1, "R"),
   (7775, 7775, 1, "r"), (7776, 7776, 1, "S"), (7777, 7777, 1, "s"), (7778, 7778, 1, "S"), (7779, 7779, 1, "s"), (7780, 7780, 1, "S"),
   (7781, 7781, 1, "s"), (7782, 7782, 1, "S"), (7783, 7783, 1, "s"), (7784, 7784, 1, "S"), (7785, 7785, 1, "s"), (7786, 7786, 1, "T"),
   (7787, 7787, 1, "t"), (7788, 7788, 1, "T"), (7789, 7789, 1, "t"), (7790, 7790, 1, "T"), (7791, 7791, 1, "t"), (7792, 7792, 1, "T"),
   (7793, 7793, 1, "t"), (7794, 7794, 1, "U"), (7795, 7795, 1, "u"), (7796, 7796, 1, "U"), (7797, 7797, 1, "u"), (7798, 7798, 1, "U"),
   (7799, 7799, 1, "u"), (7800, 7800, 1, "U"), (7801, 7801, 1, "u"), (7802, 7802, 1, "U"), (7803, 7803, 1, "u"), (7804, 7804, 1, "V"),
   (7805, 7805, 1, "v"), (7806, 7806, 1, "V")]

def residueRunsThird : List (Nat × Nat × Nat × String) :=
  [
   (7807, 7807, 1, "v"), (7808, 7808, 1, "W"), (7809, 7809, 1, "w"), (7810, 7810, 1, "W"), (7811, 7811, 1, "w"), (7812, 7812, 1, "W"),
   (7813, 7813, 1, "w"), (7814, 7814, 1, "W"), (7815, 7815, 1, "w"), (7816, 7816, 1, "W"), (7817, 7817, 1, "w"), (7818, 7818, 1, "X"),
   (7819, 7819, 1, "x"), (7820, 7820, 1, "X"), (7821, 7821, 1, "x"), (7822, 7822, 1, "Y"), (7823, 7823, 1, "y"), (7824, 7824, 1, "Z"),
   (7825, 7825, 1, "z"), (7826, 7826, 1, "Z"), (7827, 7827, 1, "z"), (7828, 7828, 1, "Z"), (7829, 7829, 1, "z"), (7830, 7830, 1, "h"),
   (7831, 7831, 1, "t"), (7832, 7832, 1, "w"), (7833, 7833, 1, "y"), (7834, 7834, 1, "a"), (7835, 7835, 1, "s"), (7840, 7840, 1, "A"),
   (7841, 7841, 1, "a"), (7842, 7842, 1, "A"), (7843, 7843, 1, "a"), (7844, 7844, 1, "A"), (7845, 7845, 1, "a"), (7846, 7846, 1, "A"),
   (7847, 7847, 1, "a"), (7848, 7848, 1, "A"), (7849, 7849, 1, "a"), (7850, 7850, 1, "A"), (7851, 7851, 1, "a"), (7852, 7852, 1, "A"),
   (7853, 7853, 1, "a"), (7854, 7854, 1, "A"), (7855, 7855, 1, "a"), (7856, 7856, 1, "A"), (7857, 7857, 1, "a"), (7858, 7858, 1, "A"),
   (7859, 7859, 1, "a"), (7860, 7860, 1, "A"), (7861, 7861, 1, "a"), (7862, 7862, 1, "A"), (7863, 7863, 1, "a"), (7864, 7864, 1, "E"),
   (7865, 7865, 1, "e"), (7866, 7866, 1, "E"), (7867, 7867, 1, "e"), (7868, 7868, 1, "E"), (7869, 7869, 1, "e"), (7870, 7870, 1, "E"),
   (7871, 7871, 1, "e"), (7872, 7872, 1, "E"), (7873, 7873, 1, "e"), (7874, 7874, 1, "E"), (7875, 7875, 1, "e"), (7876, 7876, 1, "E"),
   (7877, 7877, 1, "e"), (7878, 7878, 1, "E"), (7879, 7879, 1, "e"), (7880, 7880, 1, "I"), (7881, 7881, 1, "i"), (7882, 7882, 1, "I"),
   (7883, 7883, 1, "i"), (7884, 7884, 1, "O"), (7885, 7885, 1, "o"), (7886, 7886, 1, "O"), (7887, 7887, 1, "o"), (7888, 7888, 1, "O"),
   (7889, 7889, 1, "o"), (7890, 7890, 1, "O"), (7891, 7891, 1, "o"), (7892, 7892, 1, "O"), (7893, 7893, 1, "o"), (7894, 7894, 1, "O"),
   (7895, 7895, 1, "o"), (7896, 7896, 1, "O"), (7897, 7897, 1, "o"), (7898, 7898, 1, "O"), (7899, 7899, 1, "o"), (7900, 7900, 1, "O"),
   (7901, 7901, 1, "o"), (7902, 7902, 1, "O"), (7903, 7903, 1, "o"), (7904, 7904, 1, "O"), (7905, 7905, 1, "o"), (7906, 7906, 1, "O"),
   (7907, 7907, 1, "o"), (7908, 7908, 1, "U"), (7909, 7909, 1, "u"), (7910, 7910, 1, "U"), (7911, 7911, 1, "u"), (7912, 7912, 1, "U"),
   (7913, 7913, 1, "u"), (7914, 7914, 1, "U"), (7915, 7915, 1, "u"), (7916, 7916, 1, "U"), (7917, 7917, 1, "u"), (7918, 7918, 1, "U"),
   (7919, 7919, 1, "u"), (7920, 7920, 1, "U"), (7921, 7921, 1, "u"), (7922, 7922, 1, "Y"), (7923, 7923, 1, "y"), (7924, 7924, 1, "Y"),
   (7925, 7925, 1, "y"), (7926, 7926, 1, "Y"), (7927, 7927, 1, "y"), (7928, 7928, 1, "Y"), (7929, 7929, 1, "y"), (8125, 8125, 1, " "),
   (8127, 8129, 0, " "), (8141, 8143, 0, " "), (8157, 8159, 0, " "), (8173, 8174, 0, " "), (8175, 8175, 1, "`"), (8189, 8190, 0, " "),
   (8192, 8202, 0, " "), (8215, 8215, 1, " "), (8228, 8228, 1, "."), (8229, 8229, 1, ".."), (8230, 8230, 1, "..."), (8239, 8239, 1, " "),
   (8252, 8252, 1, "!!"), (8254, 8254, 1, " "), (8263, 8263, 1, "??"), (8264, 8264, 1, "?!"), (8265, 8265, 1, "!?"), (8287, 8287, 1, " "),
   (8304, 8304, 1, "0"), (8305, 8305, 1, "i"), (8308, 8313, 1, "4"), (8314, 8314, 1, "+"), (8316, 8316, 1, "="), (8317, 8318, 1, "("),
   (8319, 8319, 1, "n"), (8320, 8329, 1, "0"), (8330, 8330, 1, "+"), (8332, 8332, 1, "="), (8333, 8334, 1, "("), (8336, 8336, 1, "a"),
   (8337, 8337, 1, "e"), (8338, 8338, 1, "o"), (8339, 8339, 1, "x"), (8341, 8341, 1, "h"), (8342, 8345, 1, "k"), (8346, 8346, 1, "p"),
   (8347, 8348, 1, "s"), (8360, 8360, 1, "Rs"), (8448, 8448, 1, "a/c"), (8449, 8449, 1, "a/s"), (8450, 8451, 0, "C"), (8453, 8453, 1, "c/o"),
   (8454, 8454, 1, "c/u"), (8457, 8457, 1, "F"), (8458, 8458, 1, "g"), (8459, 8461, 0, "H"), (8462, 8462, 1, "h"), (8464, 8465, 0, "I"),
   (8466, 8466, 1, "L"), (8467, 8467, 1, "l"), (8469, 8469, 1, "N"), (8470, 8470, 1, "No"), (8473, 8475, 1, "P"), (8476, 8477, 0, "R"),
   (8480, 8480, 1, "SM"), (8481, 8481, 1, "TEL"), (8482, 8482, 1, "TM"), (8484, 8484, 1, "Z"), (8488, 8488, 1, "Z"), (8490, 8490, 1, "K"),
   (8491, 8493, 1, "A"), (8495, 8495, 1, "e"), (8496, 8497, 1, "E"), (8499, 8499, 1, "M"), (8500, 8500, 1, "o"), (8505, 8505, 1, "i"),
   (8507, 8507, 1, "FAX"), (8517, 8517, 1, "D"), (8518, 8519, 1, "d"), (8520, 8521, 1, "i"), (8528, 8528, 1, "17"), (8529, 8529, 1, "19"),
   (8530, 8530, 1, "110"), (8531, 8531, 1, "13"), (8532, 8532, 1, "23"), (8533, 8533, 1, "15"), (8534, 8534, 1, "25"), (8535, 8535, 1, "35"),
   (8536, 8536, 1, "45"), (8537, 8537, 1, "16")]

def residueRunsFourth : List (Nat × Nat × Nat × String) :=
  [
   (8538, 8538, 1, "56"), (8539, 8539, 1, "18"), (8540, 8540, 1, "38"), (8541, 8541, 1, "58"), (8542, 8542, 1, "78"), (8543, 8543, 1, "1"),
   (8544, 8544, 1, "I"), (8545, 8545, 1, "II"), (8546, 8546, 1, "III"), (8547, 8547, 1, "IV"), (8548, 8548, 1, "V"), (8549, 8549, 1, "VI"),
   (8550, 8550, 1, "VII"), (8551, 8551, 1, "VIII"), (8552, 8552, 1, "IX"), (8553, 8553, 1, "X"), (8554, 8554, 1, "XI"), (8555, 8555, 1, "XII"),
   (8556, 8556, 1, "L"), (8557, 8558, 1, "C"), (8559, 8559, 1, "M"), (8560, 8560, 1, "i"), (8561, 8561, 1, "ii"), (8562, 8562, 1, "iii"),
   (8563, 8563, 1, "iv"), (8564, 8564, 1, "v"), (8565, 8565, 1, "vi"), (8566, 8566, 1, "vii"), (8567, 8567, 1, "viii"), (8568, 8568, 1, "ix"),
   (8569, 8569, 1, "x"), (8570, 8570, 1, "xi"), (8571, 8571, 1, "xii"), (8572, 8572, 1, "l"), (8573, 8574, 1, "c"), (8575, 8575, 1, "m"),
   (8585, 8585, 1, "03"), (8800, 8800, 1, "="), (8814, 8814, 1, "<"), (8815, 8815, 1, ">"), (9312, 9320, 1, "1"), (9321, 9321, 1, "10"),
   (9322, 9322, 1, "11"), (9323, 9323, 1, "12"), (9324, 9324, 1, "13"), (9325, 9325, 1, "14"), (9326, 9326, 1, "15"), (9327, 9327, 1, "16"),
   (9328, 9328, 1, "17"), (9329, 9329, 1, "18"), (9330, 9330, 1, "19"), (9331, 9331, 1, "20"), (9332, 9332, 1, "(1)"), (9333, 9333, 1, "(2)"),
   (9334, 9334, 1, "(3)"), (9335, 9335, 1, "(4)"), (9336, 9336, 1, "(5)"), (9337, 9337, 1, "(6)"), (9338, 9338, 1, "(7)"), (9339, 9339, 1, "(8)"),
   (9340, 9340, 1, "(9)"), (9341, 9341, 1, "(10)"), (9342, 9342, 1, "(11)"), (9343, 9343, 1, "(12)"), (9344, 9344, 1, "(13)"), (9345, 9345, 1, "(14)"),
   (9346, 9346, 1, "(15)"), (9347, 9347, 1, "(16)"), (9348, 9348, 1, "(17)"), (9349, 9349, 1, "(18)"), (9350, 9350, 1, "(19)"), (9351, 9351, 1, "(20)"),
   (9352, 9352, 1, "1."), (9353, 9353, 1, "2."), (9354, 9354, 1, "3."), (9355, 9355, 1, "4."), (9356, 9356, 1, "5."), (9357, 9357, 1, "6."),
   (9358, 9358, 1, "7."), (9359, 9359, 1, "8."), (9360, 9360, 1, "9."), (9361, 9361, 1, "10."), (9362, 9362, 1, "11."), (9363, 9363, 1, "12."),
   (9364, 9364, 1, "13."), (9365, 9365, 1, "14."), (9366, 9366, 1, "15."), (9367, 9367, 1, "16."), (9368, 9368, 1, "17."), (9369, 9369, 1, "18."),
   (9370, 9370, 1, "19."), (9371, 9371, 1, "20."), (9372, 9372, 1, "(a)"), (9373, 9373, 1, "(b)"), (9374, 9374, 1, "(c)"), (9375, 9375, 1, "(d)"),
   (9376, 9376, 1, "(e)"), (9377, 9377, 1, "(f)"), (9378, 9378, 1, "(g)"), (9379, 9379, 1, "(h)"), (9380, 9380, 1, "(i)"), (9381, 9381, 1, "(j)"),
   (9382, 9382, 1, "(k)"), (9383, 9383, 1, "(l)"), (9384, 9384, 1, "(m)"), (9385, 9385, 1, "(n)"), (9386, 9386, 1, "(o)"), (9387, 9387, 1, "(p)"),
   (9388, 9388, 1, "(q)"), (9389, 9389, 1, "(r)"), (9390, 9390, 1, "(s)"), (9391, 9391, 1, "(t)"), (9392, 9392, 1, "(u)"), (9393, 9393, 1, "(v)"),
   (9394, 9394, 1, "(w)"), (9395, 9395, 1, "(x)"), (9396, 9396, 1, "(y)"), (9397, 9397, 1, "(z)"), (9398, 9423, 1, "A"), (9424, 9449, 1, "a"),
   (9450, 9450, 1, "0"), (10868, 10868, 1, "::="), (10869, 10869, 1, "=="), (10870, 10870, 1, "==="), (11388, 11388, 1, "j"), (11389, 11389, 1, "V"),
   (12288, 12288, 1, " "), (12443, 12444, 0, " "), (12800, 12830, 0, "()"), (12832, 12867, 0, "()"), (12880, 12880, 1, "PTE"), (12881, 12881, 1, "21"),
   (12882, 12882, 1, "22"), (12883, 12883, 1, "23"), (12884, 12884, 1, "24"), (12885, 12885, 1, "25"), (12886, 12886, 1, "26"), (12887, 12887, 1, "27"),
   (12888, 12888, 1, "28"), (12889, 12889, 1, "29"), (12890, 12890, 1, "30"), (12891, 12891, 1, "31"), (12892, 12892, 1, "32"), (12893, 12893, 1, "33"),
   (12894, 12894, 1, "34"), (12895, 12895, 1, "35"), (12977, 12977, 1, "36"), (12978, 12978, 1, "37"), (12979, 12979, 1, "38"), (12980, 12980, 1, "39"),
   (12981, 12981, 1, "40"), (12982, 12982, 1, "41"), (12983, 12983, 1, "42"), (12984, 12984, 1, "43"), (12985, 12985, 1, "44"), (12986, 12986, 1, "45"),
   (12987, 12987, 1, "46"), (12988, 12988, 1, "47"), (12989, 12989, 1, "48"), (12990, 12990, 1, "49"), (12991, 12991, 1, "50"), (12992, 13000, 1, "1"),
   (13001, 13001, 1, "10"), (13002, 13002, 1, "11"), (13003, 13003, 1, "12"), (13004, 13004, 1, "Hg"), (13005, 13005, 1, "erg"), (13006, 13006, 1, "eV"),
   (13007, 13007, 1, "LTD"), (13144, 13153, 1, "0"), (13154, 13154, 1, "10"), (13155, 13155, 1, "11"), (13156, 13156, 1, "12"), (13157, 13157, 1, "13"),
   (13158, 13158, 1, "14"), (13159, 13159, 1, "15"), (13160, 13160, 1, "16"), (13161, 13161, 1, "17"), (13162, 13162, 1, "18"), (13163, 13163, 1, "19"),
   (13164, 13164, 1, "20"), (13165, 13165, 1, "21"), (13166, 13166, 1, "22"), (13167, 13167, 1, "23"), (13168, 13168, 1, "24"), (13169, 13169, 1, "hPa"),
   (13170, 13170, 1, "da"), (13171, 13171, 1, "AU"), (13172, 13172, 1, "bar"), (13173, 13173, 1, "oV"), (13174, 13174, 1, "pc"), (13175, 13175, 1, "dm"),
   (13176, 13176, 1, "dm2"), (13177, 13177, 1, "dm3"), (13178, 13178, 1, "IU"), (13184, 13184, 1, "pA"), (13185, 13185, 1, "nA"), (13186, 13186, 1, "A"),
   (13187, 13187, 1, "mA"), (13188, 13188, 1, "kA")]

def residueRunsFifth : List (Nat × Nat × Nat × String) :=
  [
   (13189, 13189, 1, "KB"), (13190, 13190, 1, "MB"), (13191, 13191, 1, "GB"), (13192, 13192, 1, "cal"), (13193, 13193, 1, "kcal"), (13194, 13194, 1, "pF"),
   (13195, 13195, 1, "nF"), (13196, 13196, 1, "F"), (13197, 13197, 1, "g"), (13198, 13198, 1, "mg"), (13199, 13199, 1, "kg"), (13200, 13200, 1, "Hz"),
   (13201, 13201, 1, "kHz"), (13202, 13202, 1, "MHz"), (13203, 13203, 1, "GHz"), (13204, 13204, 1, "THz"), (13205, 13205, 1, "l"), (13206, 13206, 1, "ml"),
   (13207, 13207, 1, "dl"), (13208, 13208, 1, "kl"), (13209, 13209, 1, "fm"), (13210, 13210, 1, "nm"), (13211, 13211, 1, "m"), (13212, 13212, 1, "mm"),
   (13213, 13213, 1, "cm"), (13214, 13214, 1, "km"), (13215, 13215, 1, "mm2"), (13216, 13216, 1, "cm2"), (13217, 13217, 1, "m2"), (13218, 13218, 1, "km2"),
   (13219, 13219, 1, "mm3"), (13220, 13220, 1, "cm3"), (13221, 13221, 1, "m3"), (13222, 13222, 1, "km3"), (13223, 13223, 1, "ms"), (13224, 13224, 1, "ms2"),
   (13225, 13225, 1, "Pa"), (13226, 13226, 1, "kPa"), (13227, 13227, 1, "MPa"), (13228, 13228, 1, "GPa"), (13229, 13229, 1, "rad"), (13230, 13230, 1, "rads"),
   (13231, 13231, 1, "rads2"), (13232, 13232, 1, "ps"), (13233, 13233, 1, "ns"), (13234, 13234, 1, "s"), (13235, 13235, 1, "ms"), (13236, 13236, 1, "pV"),
   (13237, 13237, 1, "nV"), (13238, 13238, 1, "V"), (13239, 13239, 1, "mV"), (13240, 13240, 1, "kV"), (13241, 13241, 1, "MV"), (13242, 13242, 1, "pW"),
   (13243, 13243, 1, "nW"), (13244, 13244, 1, "W"), (13245, 13245, 1, "mW"), (13246, 13246, 1, "kW"), (13247, 13247, 1, "MW"), (13248, 13248, 1, "k"),
   (13249, 13249, 1, "M"), (13250, 13250, 1, "a.m."), (13251, 13251, 1, "Bq"), (13252, 13252, 1, "cc"), (13253, 13253, 1, "cd"), (13254, 13254, 1, "Ckg"),
   (13255, 13255, 1, "Co."), (13256, 13256, 1, "dB"), (13257, 13257, 1, "Gy"), (13258, 13258, 1, "ha"), (13259, 13259, 1, "HP"), (13260, 13260, 1, "in"),
   (13261, 13261, 1, "KK"), (13262, 13262, 1, "KM"), (13263, 13263, 1, "kt"), (13264, 13264, 1, "lm"), (13265, 13265, 1, "ln"), (13266, 13266, 1, "log"),
   (13267, 13267, 1, "lx"), (13268, 13268, 1, "mb"), (13269, 13269, 1, "mil"), (13270, 13270, 1, "mol"), (13271, 13271, 1, "PH"), (13272, 13272, 1, "p.m."),
   (13273, 13273, 1, "PPM"), (13274, 13274, 1, "PR"), (13275, 13275, 1, "sr"), (13276, 13276, 1, "Sv"), (13277, 13277, 1, "Wb"), (13278, 13278, 1, "Vm"),
   (13279, 13279, 1, "Am"), (13280, 13288, 1, "1"), (13289, 13289, 1, "10"), (13290, 13290, 1, "11"), (13291, 13291, 1, "12"), (13292, 13292, 1, "13"),
   (13293, 13293, 1, "14"), (13294, 13294, 1, "15"), (13295, 13295, 1, "16"), (13296, 13296, 1, "17"), (13297, 13297, 1, "18"), (13298, 13298, 1, "19"),
   (13299, 13299, 1, "20"), (13300, 13300, 1, "21"), (13301, 13301, 1, "22"), (13302, 13302, 1, "23"), (13303, 13303, 1, "24"), (13304, 13304, 1, "25"),
   (13305, 13305, 1, "26"), (13306, 13306, 1, "27"), (13307, 13307, 1, "28"), (13308, 13308, 1, "29"), (13309, 13309, 1, "30"), (13310, 13310, 1, "31"),
   (13311, 13311, 1, "gal"), (42994, 42994, 1, "C"), (42995, 42995, 1, "F"), (42996, 42996, 1, "Q"), (64256, 64256, 1, "ff"), (64257, 64257, 1, "fi"),
   (64258, 64258, 1, "fl"), (64259, 64259, 1, "ffi"), (64260, 64260, 1, "ffl"), (64261, 64262, 0, "st"), (64297, 64297, 1, "+"), (64606, 64611, 0, " "),
   (65018, 65018, 1, "   "), (65019, 65019, 1, " "), (65040, 65040, 1, ","), (65043, 65044, 1, ":"), (65045, 65045, 1, "!"), (65046, 65046, 1, "?"),
   (65049, 65049, 1, "..."), (65072, 65072, 1, ".."), (65075, 65076, 0, "_"), (65077, 65078, 1, "("), (65079, 65079, 1, "\x7b"), (65080, 65080, 1, "\x7d"),
   (65095, 65095, 1, "["), (65096, 65096, 1, "]"), (65097, 65100, 0, " "), (65101, 65103, 0, "_"), (65104, 65104, 1, ","), (65106, 65106, 1, "."),
   (65108, 65108, 1, ";"), (65109, 65109, 1, ":"), (65110, 65110, 1, "?"), (65111, 65111, 1, "!"), (65113, 65114, 1, "("), (65115, 65115, 1, "\x7b"),
   (65116, 65116, 1, "\x7d"), (65119, 65119, 1, "#"), (65120, 65120, 1, "&"), (65121, 65122, 1, "*"), (65123, 65123, 1, "-"), (65124, 65124, 1, "<"),
   (65125, 65125, 1, ">"), (65126, 65126, 1, "="), (65128, 65128, 1, "\\"), (65129, 65130, 1, "$"), (65131, 65131, 1, "@"), (65136, 65136, 1, " "),
   (65138, 65138, 1, " "), (65140, 65140, 1, " "), (65142, 65142, 1, " "), (65144, 65144, 1, " "), (65146, 65146, 1, " "), (65148, 65148, 1, " "),
   (65150, 65150, 1, " "), (65281, 65374, 1, "!"), (65507, 65507, 1, " "), (67493, 67493, 1, "q"), (119808, 119833, 1, "A"), (119834, 119859, 1, "a"),
   (119860, 119885, 1, "A"), (119886, 119892, 1, "a"), (119894, 119911, 1, "i"), (119912, 119937, 1, "A"), (119938, 119963, 1, "a"), (119964, 119964, 1, "A"),
   (119966, 119967, 1, "C"), (119970, 119970, 1, "G"), (119973, 119974, 1, "J"), (119977, 119980, 1, "N"), (119982, 119989, 1, "S"), (119990, 119993, 1, "a"),
   (119995, 119995, 1, "f"), (119997, 120003, 1, "h"), (120005, 120015, 1, "p"), (120016, 120041, 1, "A"), (120042, 120067, 1, "a"), (120068, 120069, 1, "A"),
   (120071, 120074, 1, "D"), (120077, 120084, 1, "J"), (120086, 120092, 1, "S"), (120094, 120119, 1, "a"), (120120, 120121, 1, "A"), (120123, 120126, 1, "D"),
   (120128, 120132, 1, "I"), (120134, 120134, 1, "O")]

def residueRunsSixth : List (Nat × Nat × Nat × String) :=
  [
   (120138, 120144, 1, "S"), (120146, 120171, 1, "a"), (120172, 120197, 1, "A"), (120198, 120223, 1, "a"), (120224, 120249, 1, "A"), (120250, 120275, 1, "a"),
   (120276, 120301, 1, "A"), (120302, 120327, 1, "a"), (120328, 120353, 1, "A"), (120354, 120379, 1, "a"), (120380, 120405, 1, "A"), (120406, 120431, 1, "a"),
   (120432, 120457, 1, "A"), (120458, 120483, 1, "a"), (120782, 120791, 1, "0"), (120792, 120801, 1, "0"), (120802, 120811, 1, "0"), (120812, 120821, 1, "0"),
   (120822, 120831, 1, "0"), (127232, 127232, 1, "0."), (127233, 127233, 1, "0,"), (127234, 127234, 1, "1,"), (127235, 127235, 1, "2,"), (127236, 127236, 1, "3,"),
   (127237, 127237, 1, "4,"), (127238, 127238, 1, "5,"), (127239, 127239, 1, "6,"), (127240, 127240, 1, "7,"), (127241, 127241, 1, "8,"), (127242, 127242, 1, "9,"),
   (127248, 127248, 1, "(A)"), (127249, 127249, 1, "(B)"), (127250, 127250, 1, "(C)"), (127251, 127251, 1, "(D)"), (127252, 127252, 1, "(E)"), (127253, 127253, 1, "(F)"),
   (127254, 127254, 1, "(G)"), (127255, 127255, 1, "(H)"), (127256, 127256, 1, "(I)"), (127257, 127257, 1, "(J)"), (127258, 127258, 1, "(K)"), (127259, 127259, 1, "(L)"),
   (127260, 127260, 1, "(M)"), (127261, 127261, 1, "(N)"), (127262, 127262, 1, "(O)"), (127263, 127263, 1, "(P)"), (127264, 127264, 1, "(Q)"), (127265, 127265, 1, "(R)"),
   (127266, 127266, 1, "(S)"), (127267, 127267, 1, "(T)"), (127268, 127268, 1, "(U)"), (127269, 127269, 1, "(V)"), (127270, 127270, 1, "(W)"), (127271, 127271, 1, "(X)"),
   (127272, 127272, 1, "(Y)"), (127273, 127273, 1, "(Z)"), (127274, 127274, 1, "S"), (127275, 127275, 1, "C"), (127276, 127276, 1, "R"), (127277, 127277, 1, "CD"),
   (127278, 127278, 1, "WZ"), (127280, 127305, 1, "A"), (127306, 127306, 1, "HV"), (127307, 127307, 1, "MV"), (127308, 127308, 1, "SD"), (127309, 127309, 1, "SS"),
   (127310, 127310, 1, "PPV"), (127311, 127311, 1, "WC"), (127338, 127338, 1, "MC"), (127339, 127339, 1, "MD"), (127340, 127340, 1, "MR"), (127376, 127376, 1, "DJ"),
   (130032, 130041, 1, "0")]

/-- Runs of characters with an ASCII residue. -/
def residueRuns : List (Nat × Nat × Nat × String) :=
  residueRunsFirst ++ residueRunsSecond ++ residueRunsThird ++ residueRunsFourth ++ residueRunsFifth ++ residueRunsSixth

def residueIn (n : Nat) : List (Nat × Nat × Nat × String) → Text
  | [] => []
  | (lo, hi, step, text) :: rest =>
    if n < lo then []
    else if n ≤ hi then text.toList.map (fun c => Char.ofNat (c.toNat + step * (n - lo)))
    else residueIn n rest

/-- The ASCII characters of the compatibility decomposition of a character. -/
def asciiResidue (c : Char) : Text :=
  if c.toNat < 128 then [c] else residueIn c.toNat residueRuns

end EpFormat
