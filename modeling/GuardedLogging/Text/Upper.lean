import GuardedLogging.Text.CharRanges

/-!
# Upper case

The upper-case form of a character is one character or, for some ligatures and letters with marks, several. Runs of characters that move by the same distance are kept together: alphabets with alternating cases are runs of step two.
-/

namespace GuardedLogging

namespace Upper

/-- Characters `first`, `first + step`, … that map to `target`, `target + step`, …. -/
structure Run where
  first : Nat
  count : Nat
  step : Nat
  target : Nat

private def runsOf : List Nat → List Run
  | first :: count :: step :: target :: rest => ⟨first, count, step, target⟩ :: runsOf rest
  | _ => []

private def expansionsOf : List Nat → List (Nat × List Nat)
  | c :: first :: second :: third :: rest =>
    (c, [first, second, third].filter (· != 0)) :: expansionsOf rest
  | _ => []

/-- The characters whose upper-case form is one other character. -/
def runs : List Run := runsOf <| decimalsIn
  "97 26 1 65 181 1 1 924 224 23 1 192 248 7 1 216 255 1 1 376 257 24 2 256 305 1 1 73 307 3 2 306
   314 8 2 313 331 23 2 330 378 3 2 377 383 1 1 83 384 1 1 579 387 2 2 386 392 1 1 391 396 1 1 395
   402 1 1 401 405 1 1 502 409 1 1 408 410 1 1 573 414 1 1 544 417 3 2 416 424 1 1 423 429 1 1 428
   432 1 1 431 436 2 2 435 441 1 1 440 445 1 1 444 447 1 1 503 453 1 1 452 454 1 1 452 456 1 1 455
   457 1 1 455 459 1 1 458 460 1 1 458 462 8 2 461 477 1 1 398 479 9 2 478 498 1 1 497 499 1 1 497
   501 1 1 500 505 20 2 504 547 9 2 546 572 1 1 571 575 2 1 11390 578 1 1 577 583 5 2 582 592 1 1
   11375 593 1 1 11373 594 1 1 11376 595 1 1 385 596 1 1 390 598 2 1 393 601 1 1 399 603 1 1 400
   604 1 1 42923 608 1 1 403 609 1 1 42924 611 1 1 404 613 1 1 42893 614 1 1 42922 616 1 1 407 617
   1 1 406 618 1 1 42926 619 1 1 11362 620 1 1 42925 623 1 1 412 625 1 1 11374 626 1 1 413 629 1 1
   415 637 1 1 11364 640 1 1 422 642 1 1 42949 643 1 1 425 647 1 1 42929 648 1 1 430 649 1 1 580
   650 2 1 433 652 1 1 581 658 1 1 439 669 1 1 42930 670 1 1 42928 837 1 1 921 881 2 2 880 887 1 1
   886 891 3 1 1021 940 1 1 902 941 3 1 904 945 17 1 913 962 1 1 931 963 9 1 931 972 1 1 908 973 2
   1 910 976 1 1 914 977 1 1 920 981 1 1 934 982 1 1 928 983 1 1 975 985 12 2 984 1008 1 1 922 1009
   1 1 929 1010 1 1 1017 1011 1 1 895 1013 1 1 917 1016 1 1 1015 1019 1 1 1018 1072 32 1 1040 1104
   16 1 1024 1121 17 2 1120 1163 27 2 1162 1218 7 2 1217 1231 1 1 1216 1233 48 2 1232 1377 38 1
   1329 4304 43 1 7312 4349 3 1 7357 5112 6 1 5104 7296 1 1 1042 7297 1 1 1044 7298 1 1 1054 7299 2
   1 1057 7301 1 1 1058 7302 1 1 1066 7303 1 1 1122 7304 1 1 42570 7545 1 1 42877 7549 1 1 11363
   7566 1 1 42950 7681 75 2 7680 7835 1 1 7776 7841 48 2 7840 7936 8 1 7944 7952 6 1 7960 7968 8 1
   7976 7984 8 1 7992 8000 6 1 8008 8017 4 2 8025 8032 8 1 8040 8048 2 1 8122 8050 4 1 8136 8054 2
   1 8154 8056 2 1 8184 8058 2 1 8170 8060 2 1 8186 8112 2 1 8120 8126 1 1 921 8144 2 1 8152 8160 2
   1 8168 8165 1 1 8172 8526 1 1 8498 8560 16 1 8544 8580 1 1 8579 9424 26 1 9398 11312 48 1 11264
   11361 1 1 11360 11365 1 1 570 11366 1 1 574 11368 3 2 11367 11379 1 1 11378 11382 1 1 11381
   11393 50 2 11392 11500 2 2 11499 11507 1 1 11506 11520 38 1 4256 11559 1 1 4295 11565 1 1 4301
   42561 23 2 42560 42625 14 2 42624 42787 7 2 42786 42803 31 2 42802 42874 2 2 42873 42879 5 2
   42878 42892 1 1 42891 42897 2 2 42896 42900 1 1 42948 42903 10 2 42902 42933 8 2 42932 42952 2 2
   42951 42961 1 1 42960 42967 2 2 42966 42998 1 1 42997 43859 1 1 42931 43888 80 1 5024 65345 26 1
   65313 66600 40 1 66560 66776 36 1 66736 66967 11 1 66928 66979 15 1 66940 66995 7 1 66956 67003
   2 1 66964 68800 51 1 68736 71872 32 1 71840 93792 32 1 93760 125218 34 1 125184"

/-- The characters whose upper-case form has several characters, each followed by that form filled up with zeros to three. -/
def expansions : List (Nat × List Nat) := expansionsOf <| decimalsIn
  "223 83 83 0 329 700 78 0 496 74 780 0 912 921 776 769 944 933 776 769 1415 1333 1362 0 7830 72
   817 0 7831 84 776 0 7832 87 778 0 7833 89 778 0 7834 65 702 0 8016 933 787 0 8018 933 787 768
   8020 933 787 769 8022 933 787 834 8064 7944 921 0 8065 7945 921 0 8066 7946 921 0 8067 7947 921
   0 8068 7948 921 0 8069 7949 921 0 8070 7950 921 0 8071 7951 921 0 8072 7944 921 0 8073 7945 921
   0 8074 7946 921 0 8075 7947 921 0 8076 7948 921 0 8077 7949 921 0 8078 7950 921 0 8079 7951 921
   0 8080 7976 921 0 8081 7977 921 0 8082 7978 921 0 8083 7979 921 0 8084 7980 921 0 8085 7981 921
   0 8086 7982 921 0 8087 7983 921 0 8088 7976 921 0 8089 7977 921 0 8090 7978 921 0 8091 7979 921
   0 8092 7980 921 0 8093 7981 921 0 8094 7982 921 0 8095 7983 921 0 8096 8040 921 0 8097 8041 921
   0 8098 8042 921 0 8099 8043 921 0 8100 8044 921 0 8101 8045 921 0 8102 8046 921 0 8103 8047 921
   0 8104 8040 921 0 8105 8041 921 0 8106 8042 921 0 8107 8043 921 0 8108 8044 921 0 8109 8045 921
   0 8110 8046 921 0 8111 8047 921 0 8114 8122 921 0 8115 913 921 0 8116 902 921 0 8118 913 834 0
   8119 913 834 921 8124 913 921 0 8130 8138 921 0 8131 919 921 0 8132 905 921 0 8134 919 834 0
   8135 919 834 921 8140 919 921 0 8146 921 776 768 8147 921 776 769 8150 921 834 0 8151 921 776
   834 8162 933 776 768 8163 933 776 769 8164 929 787 0 8166 933 834 0 8167 933 776 834 8178 8186
   921 0 8179 937 921 0 8180 911 921 0 8182 937 834 0 8183 937 834 921 8188 937 921 0 64256 70 70 0
   64257 70 73 0 64258 70 76 0 64259 70 70 73 64260 70 70 76 64261 83 84 0 64262 83 84 0 64275 1348
   1350 0 64276 1348 1333 0 64277 1348 1339 0 64278 1358 1350 0 64279 1348 1341 0"

def Run.shift? (run : Run) (code : Nat) : Option Nat :=
  if run.first ≤ code && code < run.first + run.count * run.step
      && (code - run.first) % run.step == 0 then
    some (run.target + (code - run.first))
  else
    none

end Upper

/-- The upper-case form of a character. -/
def upperChar (c : Char) : List Char :=
  if c.toNat < 128 then [c.toUpper]
  else
    match Upper.expansions.lookup c.toNat with
    | some codes => codes.map Char.ofNat
    | none =>
      match Upper.runs.findSome? (·.shift? c.toNat) with
      | some code => [Char.ofNat code]
      | none => [c]

/-- The upper-case form of a text, character by character. -/
def upperText (text : String) : String :=
  String.ofList (text.toList.flatMap upperChar)

end GuardedLogging
